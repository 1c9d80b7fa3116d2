/-!
What can go wrong, as causes. Each kind of error is an inductive type, and its wording stands in one
function `message`. Positions are byte positions in the text that was read.
-/

namespace AttributeShell

inductive CommandFault where
  /-- Nothing but white space. -/
  | empty
  /-- An attribute path followed by something else. -/
  | trailing (offset : Nat) (rest : String)
  /-- A switch that is neither turned on nor off. -/
  | switchUsage (argument : String)
  /-- Not one of the shell's own commands. -/
  | unknown (text : String)
  | other (reason : String)
  deriving Repr, DecidableEq

def CommandFault.message : CommandFault → String
  | .empty => "Empty input"
  | .trailing offset rest =>
    "Unexpected input after attribute path at index " ++ toString offset ++ ": " ++ rest
  | .switchUsage argument => "Usage: writable on|off (got '" ++ argument ++ "')"
  | .unknown text => "Unknown shell command: " ++ text
  | .other reason => reason

inductive ParseError where
  /-- A separator without an attribute name before it. -/
  | missingName (separator : Char) (offset : Nat)
  /-- A character that the active state does not accept. -/
  | unexpected (character : Char) (offset : Nat) (expected : String)
  /-- The text ended inside a state that has to be closed. -/
  | unterminated (state : String) (offset : Nat)
  | invalidAddress (text : String)
  | invalidCommand (fault : CommandFault)
  deriving Repr, DecidableEq

def ParseError.message : ParseError → String
  | .missingName separator offset =>
    "Attribute name is missing before '" ++ separator.toString ++ "' at index " ++ toString offset
  | .unexpected character offset expected =>
    "Unexpected '" ++ character.toString ++ "' at index " ++ toString offset ++ ", expected "
      ++ expected
  | .unterminated state offset =>
    "Input ended at index " ++ toString offset ++ " inside unterminated " ++ state
  | .invalidAddress text => "Invalid resource address: " ++ text
  | .invalidCommand fault => "Invalid command: " ++ fault.message

/-- The position that the error points at, if it points at one. -/
def ParseError.offset? : ParseError → Option Nat
  | .missingName _ offset => some offset
  | .unexpected _ offset _ => some offset
  | .unterminated _ offset => some offset
  | .invalidAddress _ => none
  | .invalidCommand _ => none

/-- Errors of a schema: its file cannot be read, or does not describe attributes. -/
inductive SchemaError where
  | unreadable (reason : String)
  | invalidFormat (reason : String)
  /-- A response for many resources in which no item describes all of them. -/
  | missingWildcard
  /-- An element of a resource address that is not one name with one value. -/
  | invalidAddressNode (node : String)
  deriving Repr, DecidableEq

def SchemaError.message : SchemaError → String
  | .unreadable reason => "Failed to read schema: " ++ reason
  | .invalidFormat reason => "Invalid schema format: " ++ reason
  | .missingWildcard => "Failed to locate the wildcard result"
  | .invalidAddressNode node => "Address element is not a property: " ++ node

inductive ConfigError where
  | fileNotFound (path : String)
  | invalidFormat (reason : String)
  | invalidValue (field value : String)
  | other (reason : String)
  deriving Repr, DecidableEq

def ConfigError.message : ConfigError → String
  | .fileNotFound path => "Config file not found: " ++ path
  | .invalidFormat reason => "Invalid config format: " ++ reason
  | .invalidValue field value => "Invalid value '" ++ value ++ "' for field '" ++ field ++ "'"
  | .other reason => reason

inductive ShellError where
  | parse (error : ParseError)
  | schema (error : SchemaError)
  | config (error : ConfigError)
  /-- A file that exists but cannot be read. -/
  | file (reason : String)
  /-- No attributes are described at an address. -/
  | noDescription (address : String)
  /-- No attribute is described at a path. -/
  | unknownAttribute (path : String)
  | other (reason : String)
  deriving Repr, DecidableEq

/-- The report names the area of a schema, configuration or file error; the others speak for
themselves. -/
def ShellError.message : ShellError → String
  | .parse error => error.message
  | .schema error => "Schema error: " ++ error.message
  | .config error => "Configuration error: " ++ error.message
  | .file reason => "I/O error: " ++ reason
  | .noDescription address => "No attribute description for " ++ address
  | .unknownAttribute path => "Unknown attribute: " ++ path
  | .other reason => reason

/-- The message of the error that an area reports, without the name of the area. -/
def ShellError.cause? : ShellError → Option String
  | .parse error => some error.message
  | .schema error => some error.message
  | .config error => some error.message
  | .file reason => some reason
  | .noDescription _ => none
  | .unknownAttribute _ => none
  | .other _ => none

end AttributeShell
