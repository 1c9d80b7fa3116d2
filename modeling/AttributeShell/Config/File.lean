import AttributeShell.Config.Basic
import AttributeShell.Toml.Reader
import AttributeShell.Toml.Writer

/-!
Configuration files. A setting that is missing has its default, and one that is unknown is ignored;
a setting of the wrong type is an error. A section can also be given as an array of its settings in
their order; what follows them there is not read.
-/

namespace AttributeShell

namespace Toml

mutual

/-- Whether all numbers in a value can be read: each is made of digits and in range. -/
def isReadable : Toml → Bool
  | .integer value => value.isSome
  | .float inRange => inRange
  | .string _ | .boolean _ | .moment => true
  | .array items _ => areReadable items
  | .table _ entries => entriesReadable entries

def areReadable : List Toml → Bool
  | [] => true
  | first :: rest => isReadable first && areReadable rest

def entriesReadable : List (String × Toml) → Bool
  | [] => true
  | (_, first) :: rest => isReadable first && entriesReadable rest

end

/-- A setting: its value, or the default if it is missing. -/
abbrev Setting (α : Type) := Toml → Option α

def text? : Setting String
  | .string text => some text
  | _ => none

def boolean? : Setting Bool
  | .boolean value => some value
  | _ => none

def count? : Setting Nat
  | .integer (some value) => if 0 ≤ value ∧ value < Nat.pow 2 64 then some value.toNat else none
  | _ => none

/-- A level is a string, or an empty value under the name of the level. -/
def level? : Setting LogLevel
  | .string name => LogLevel.ofName? name
  | .table _ [(name, .table _ [])] => LogLevel.ofName? name
  | .table _ [(name, .array [] _)] => LogLevel.ofName? name
  | _ => none

/-- What is known of a section: its settings by name, or in order. -/
inductive Section where
  | named (entries : List (String × Toml))
  | ordered (items : List Toml)

/-- The settings of a section. All that is not among the known ones must be readable. A date or a
time is read as a section that says nothing. -/
def section? (known : List String) : Toml → Option Section
  | .table _ entries =>
    if (entries.filter fun entry => !known.contains entry.1).all (isReadable ·.2) then
      some (.named entries)
    else none
  | .array items _ => some (.ordered items)
  | .moment => some (.named [])
  | _ => none

/-- The setting with a name and a place in its section. -/
def Section.setting {α : Type} (settings : Section) (name : String) (place : Nat)
    (read : Setting α) (default : α) : Option α :=
  let given := match settings with
    | .named entries => (entries.find? (·.1 == name)).map (·.2)
    | .ordered items => items[place]?
  match given with
  | some value => read value
  | none => some default

def schema? : Setting SchemaConfig := fun value => do
  let settings ← section? ["file", "address", "cache_ttl"] value
  let base : SchemaConfig := {}
  return { file := ← settings.setting "file" 0 (fun value => (text? value).map some) base.file
           address := ← settings.setting "address" 1 text? base.address
           cacheTtl := ← settings.setting "cache_ttl" 2 count? base.cacheTtl }

def completion? : Setting CompletionConfig := fun value => do
  let settings ← section? ["writable_only"] value
  let base : CompletionConfig := {}
  return { writableOnly := ← settings.setting "writable_only" 0 boolean? base.writableOnly }

def display? : Setting DisplayConfig := fun value => do
  let settings ← section? ["color", "highlighting"] value
  let base : DisplayConfig := {}
  return { color := ← settings.setting "color" 0 boolean? base.color
           highlighting := ← settings.setting "highlighting" 1 boolean? base.highlighting }

def history? (home : String) : Setting HistoryConfig := fun value => do
  let settings ← section? ["max_size", "file_path", "persist"] value
  let base := Config.defaultHistory home
  return { maxSize := ← settings.setting "max_size" 0 count? base.maxSize
           filePath := ← settings.setting "file_path" 1 text? base.filePath
           persist := ← settings.setting "persist" 2 boolean? base.persist }

def logging? : Setting LoggingConfig := fun value => do
  let settings ← section? ["level", "timestamps"] value
  let base : LoggingConfig := {}
  return { level := ← settings.setting "level" 0 level? base.level
           timestamps := ← settings.setting "timestamps" 1 boolean? base.timestamps }

def config? (home : String) : Setting Config := fun value => do
  let sections ← section? ["schema", "completion", "display", "history", "logging"] value
  let base := Config.default home
  return { schema := ← sections.setting "schema" 0 schema? base.schema
           completion := ← sections.setting "completion" 1 completion? base.completion
           display := ← sections.setting "display" 2 display? base.display
           history := ← sections.setting "history" 3 (history? home) base.history
           logging := ← sections.setting "logging" 4 logging? base.logging }

end Toml

namespace Config

/-- Reads the text of a configuration file. One sentence stands for all that a TOML library may say
of a text that it cannot read as one; the library's wording is not reproduced. -/
def ofText (home text : String) : Except ConfigError Config :=
  match (Toml.parse text).bind fun root => Toml.config? home root.toToml with
  | some config => .ok config
  | none => .error (.invalidFormat "the text does not describe a configuration")

/-- Reads a configuration file. The one in the home directory may be missing, one that was asked for
may not. -/
def load (files : Files) (home : String) (path : Option String) : Except ShellError Config :=
  let file := path.getD (defaultPath home)
  if files.exists? file then
    match files.read file with
    | .ok text => (ofText home text).mapError .config
    | .error error => .error (.file error.message)
  else
    match path with
    | some path => .error (.config (.fileNotFound path))
    | none => .ok (default home)

def writeSetting (name value : String) : String := name ++ " = " ++ value

/-- A section: its header, and its settings a line each. -/
def writeSection (name : String) (settings : List (String × String)) : String :=
  String.join ((("[" ++ name ++ "]") :: settings.map fun setting =>
    writeSetting setting.1 setting.2).map (· ++ "\n"))

def writeBool (value : Bool) : String := if value then "true" else "false"

/-- The text of a configuration file: the sections with an empty line between them. -/
def text (config : Config) : String :=
  "\n".intercalate
    [ writeSection "schema"
        ((config.schema.file.toList.map fun file => ("file", Toml.writeString file)) ++
          [ ("address", Toml.writeString config.schema.address),
            ("cache_ttl", toString config.schema.cacheTtl) ]),
      writeSection "completion" [("writable_only", writeBool config.completion.writableOnly)],
      writeSection "display"
        [ ("color", writeBool config.display.color),
          ("highlighting", writeBool config.display.highlighting) ],
      writeSection "history"
        [ ("max_size", toString config.history.maxSize),
          ("file_path", Toml.writeString config.history.filePath),
          ("persist", writeBool config.history.persist) ],
      writeSection "logging"
        [ ("level", Toml.writeString config.logging.level.name),
          ("timestamps", writeBool config.logging.timestamps) ] ]

end Config

end AttributeShell
