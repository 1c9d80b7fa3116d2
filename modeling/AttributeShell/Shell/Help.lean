/-!
The help texts of the shell.
-/

namespace AttributeShell.Help

def overview : String := "\n".intercalate
  [ "Commands:",
    "  <attribute path>   Describe an attribute (Tab completes)",
    "  cd <address>       Change the current resource address",
    "  writable on|off    Toggle writable-only completion",
    "  reload             Drop cached attribute descriptions",
    "  help [topic]       Show help (topics: cd, writable, reload, paths)",
    "  exit | quit        Leave the shell" ]

def goTo : String := "\n".intercalate
  [ "cd <address>",
    "  Select the resource whose attributes are completed.",
    "  Accepts absolute (/subsystem=web), relative (connector=http) and '..' targets." ]

def writable : String := "\n".intercalate
  [ "writable on|off",
    "  Hide or show read-only attributes in completion." ]

def reload : String := "\n".intercalate
  [ "reload",
    "  Forget cached attribute descriptions and re-read them on next use." ]

def paths : String := "\n".intercalate
  [ "Attribute paths",
    "  name ('.' name | '[' index ']')*, e.g. socket.port or servers[0].name",
    "  Press Tab to complete; enter a path to describe the attribute." ]

/-- The help on a topic, or the overview. -/
def text : Option String → String
  | none => overview
  | some "cd" => goTo
  | some "writable" => writable
  | some "reload" => reload
  | some "paths" => paths
  | some "path" => paths
  | some other => "No help for '" ++ other ++ "'. Try: help"

end AttributeShell.Help
