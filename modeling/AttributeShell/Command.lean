import AttributeShell.Path.Basic
import AttributeShell.Text.Blank
import AttributeShell.Text.Split

/-!
The lines that the shell takes: its own commands, and attribute paths to describe. A word of the
shell counts as a command only if it stands alone or white space follows it.
-/

namespace AttributeShell

inductive Command where
  /-- Describe the attribute that a path names. -/
  | describe (path : String)
  /-- Go to another resource. -/
  | goTo (target : String)
  /-- Hide or show what is read-only. -/
  | writable (enabled : Bool)
  /-- Forget the schemas read so far. -/
  | reload
  | help (topic : Option String)
  | exit
  deriving Repr, DecidableEq

namespace Command

/-- What follows a word that stands at the front of a line, alone or before white space. -/
def argument? (word line : String) : Option String :=
  match Text.dropStart word.toList line.toList with
  | some [] => some ""
  | some (c :: rest) =>
    if Text.isBlank c then some (String.ofList (Text.trimmed (c :: rest))) else none
  | none => none

/-- Whether a line without white space around it is one of the shell's own commands. -/
def isShellCommand (line : String) : Bool :=
  (argument? "cd" line).isSome || (argument? "writable" line).isSome
    || (argument? "help" line).isSome || line == "exit" || line == "quit" || line == "reload"

def ofSwitch (argument : String) : Except ParseError Command :=
  if argument = "on" ∨ argument = "true" then .ok (.writable true)
  else if argument = "off" ∨ argument = "false" then .ok (.writable false)
  else .error (.invalidCommand (.switchUsage argument))

def parseShellCommand (line : String) : Except ParseError Command :=
  let trimmed := Text.trim line
  if trimmed = "exit" ∨ trimmed = "quit" then .ok .exit
  else if trimmed = "reload" then .ok .reload
  else if let some topic := argument? "help" trimmed then
    .ok (.help (if topic.isEmpty then none else some topic))
  else if let some argument := argument? "writable" trimmed then ofSwitch argument
  else if let some target := argument? "cd" trimmed then
    .ok (.goTo (if target.isEmpty then "/" else target))
  else .error (.invalidCommand (.unknown line))

/-- A line that is none of the shell's commands has to be an attribute path from end to end. -/
def parsePath (line : String) : Except ParseError Command :=
  match AttributePath.parse line with
  | .error error => .error error
  | .ok path =>
    match path.haltedAt with
    | none => .ok (.describe line)
    | some offset =>
      .error (.invalidCommand (.trailing offset ((Text.from? line offset).getD "")))

def parse (line : String) : Except ParseError Command :=
  let trimmed := Text.trim line
  if trimmed.isEmpty then .error (.invalidCommand .empty)
  else if isShellCommand trimmed then parseShellCommand trimmed
  else parsePath trimmed

end Command

end AttributeShell
