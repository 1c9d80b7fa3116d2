import AttributeShell.Address
import AttributeShell.Files

/-!
The configuration of the shell, with its defaults.
-/

namespace AttributeShell

inductive LogLevel where
  | error
  | warn
  | info
  | debug
  | trace
  deriving Repr, DecidableEq

namespace LogLevel

def name : LogLevel → String
  | error => "error"
  | warn => "warn"
  | info => "info"
  | debug => "debug"
  | trace => "trace"

def all : List LogLevel := [error, warn, info, debug, trace]

def ofName? (name : String) : Option LogLevel := all.find? (·.name == name)

end LogLevel

structure SchemaConfig where
  /-- The snapshot file. -/
  file : Option String := none
  /-- Where a session starts. -/
  address : String := "/"
  /-- For how many seconds an answer is kept. -/
  cacheTtl : Nat := 30
  deriving Repr, DecidableEq

structure CompletionConfig where
  writableOnly : Bool := false
  deriving Repr, DecidableEq

structure DisplayConfig where
  color : Bool := true
  highlighting : Bool := true
  deriving Repr, DecidableEq

structure HistoryConfig where
  maxSize : Nat := 1000
  filePath : String
  persist : Bool := true
  deriving Repr, DecidableEq

structure LoggingConfig where
  level : LogLevel := .warn
  timestamps : Bool := false
  deriving Repr, DecidableEq

structure Config where
  schema : SchemaConfig := {}
  completion : CompletionConfig := {}
  display : DisplayConfig := {}
  history : HistoryConfig
  logging : LoggingConfig := {}
  deriving Repr, DecidableEq

namespace Config

def below (path name : String) : String :=
  if path.isEmpty then name
  else if path.toList.getLast? = some '/' then path ++ name
  else path ++ "/" ++ name

def defaultHistory (home : String) : HistoryConfig :=
  { filePath := below home ".attrsh_history" }

/-- What applies in a home directory without a configuration file. -/
def default (home : String) : Config := { history := defaultHistory home }

def defaultPath (home : String) : String := below (below home ".attrsh") "config.toml"

/-- The first setting that makes no sense, if there is one. -/
def validate (config : Config) : Except ConfigError Unit :=
  match Address.parse config.schema.address with
  | .error _ => .error (.invalidValue "schema.address" config.schema.address)
  | .ok _ =>
    if config.history.maxSize = 0 then .error (.invalidValue "history.max_size" "0") else .ok ()

end Config

end AttributeShell
