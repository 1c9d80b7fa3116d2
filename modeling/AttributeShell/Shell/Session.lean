import AttributeShell.Command
import AttributeShell.Completion
import AttributeShell.Shell.Help
import AttributeShell.Shell.Prompt
import AttributeShell.Shell.Report
import AttributeShell.Source.Basic

/-!
A session of the shell: where it is, how it is set, and what a line does to it. The schema of the
current resource comes from a source, whose state goes along with the session.
-/

namespace AttributeShell

structure Session where
  address : Address
  writableOnly : Bool := false
  colors : Bool := true
  running : Bool := true
  deriving Repr, DecidableEq

inductive Reply where
  | described (path : String) (attr : Attribute)
  | message (text : String)
  | nothing

def Reply.text? (colors : Bool) : Reply → Option String
  | described path attr => some (Report.ofAttribute colors path attr)
  | message text => some text
  | nothing => none

/-- A session together with the state of its source. -/
structure Shell (σ : Type) where
  session : Session
  source : σ

namespace Session

/-- Reads a line. The line that says so ends the session. -/
def read (session : Session) (line : String) : Except ParseError Command × Session :=
  match Command.parse line with
  | .ok .exit => (.ok .exit, { session with running := false })
  | other => (other, session)

def prompt (session : Session) : String := Prompt.left session.address.text session.writableOnly

end Session

namespace Shell

variable {σ : Type} (source : Source σ) (now : Nat)

/-- Asks the source for the attributes of a resource. -/
def fetch (address : Address) (shell : Shell σ) : Answer × Shell σ :=
  let (answer, state) := source.fetch now address shell.source
  (answer, { shell with source := state })

/-- The attributes of the current resource; a source that fails has none. -/
def schema? (shell : Shell σ) : Option Tree × Shell σ :=
  match shell.fetch source now shell.session.address with
  | (.ok tree, shell) => (tree, shell)
  | (.error _, shell) => (none, shell)

/-- Completes a line. The source is only asked if there is a path to complete. -/
def complete (line : String) (position : Nat) (shell : Shell σ) : Option Completion × Shell σ :=
  match AttributePath.before? line position with
  | none => (none, shell)
  | some path =>
    match shell.schema? source now with
    | (none, shell) => (none, shell)
    | (some tree, shell) => (tree.resolve shell.session.writableOnly path, shell)

/-- The attribute that an expression names. The source is only asked if the path is finished. -/
def describe (expression : String) (shell : Shell σ) : Option Attribute × Shell σ :=
  match AttributePath.finishedNames? expression with
  | none => (none, shell)
  | some names =>
    match shell.schema? source now with
    | (none, shell) => (none, shell)
    | (some tree, shell) => (tree.lookup names, shell)

/-- The description of a candidate, if it names an attribute. -/
def describeCandidate (line : String) (start : Nat) (candidate : String) (shell : Shell σ) :
    Option String × Shell σ :=
  match Suggestion.expression? line start candidate with
  | none => (none, shell)
  | some expression =>
    match shell.describe source now expression with
    | (attr, shell) => (attr.bind Attribute.description, shell)

def suggestAll (line : String) (start stop : Nat) :
    List String → Shell σ → List Suggestion × Shell σ
  | [], shell => ([], shell)
  | candidate :: rest, shell =>
    let (description, shell) := shell.describeCandidate source now line start candidate
    let (more, shell) := suggestAll line start stop rest shell
    (⟨candidate, start, stop, description⟩ :: more, shell)

def suggest (line : String) (position : Nat) (shell : Shell σ) : List Suggestion × Shell σ :=
  match shell.complete source now line position with
  | (none, shell) => ([], shell)
  | (some completion, shell) =>
    suggestAll source now line completion.offset position completion.candidates shell

def runDescribe (path : String) (shell : Shell σ) : Except ShellError Reply × Shell σ :=
  match AttributePath.parse path with
  | .error error => (.error (.parse error), shell)
  | .ok _ =>
    match shell.schema? source now with
    | (none, shell) => (.error (.noDescription shell.session.address.text), shell)
    | (some _, shell) =>
      match shell.describe source now path with
      | (some attr, shell) => (.ok (.described path attr), shell)
      | (none, shell) => (.error (.unknownAttribute path), shell)

/-- Goes to another resource, unless its target is wrong or the source fails on it. -/
def runGoTo (target : String) (shell : Shell σ) : Except ShellError Reply × Shell σ :=
  match shell.session.address.resolve target with
  | .error error => (.error (.parse error), shell)
  | .ok address =>
    match shell.fetch source now address with
    | (.error error, shell) => (.error (.schema error), shell)
    | (.ok _, shell) =>
      (.ok (.message ("Current address: " ++ address.text)),
        { shell with session := { shell.session with address } })

def execute (command : Command) (shell : Shell σ) : Except ShellError Reply × Shell σ :=
  match command with
  | .describe path => shell.runDescribe source now path
  | .goTo target => shell.runGoTo source now target
  | .writable enabled =>
    (.ok (.message ("Writable-only completion " ++ if enabled then "on" else "off")),
      { shell with session := { shell.session with writableOnly := enabled } })
  | .reload =>
    (.ok (.message "Schema cache cleared"),
      { shell with source := source.invalidate shell.source })
  | .help topic => (.ok (.message (Help.text topic)), shell)
  | .exit => (.ok .nothing, shell)

def runLine (line : String) (shell : Shell σ) : Except ShellError Reply × Shell σ :=
  match shell.session.read line with
  | (.error error, session) => (.error (.parse error), { shell with session })
  | (.ok command, session) => { shell with session }.execute source now command

/-- One turn of the shell: blank lines are skipped, and the line that ends the session is not
executed, nor is any line after it. -/
def turn (line : String) (shell : Shell σ) : Option (Except ShellError Reply) × Shell σ :=
  if !shell.session.running || (Text.trim line).isEmpty then (none, shell)
  else
    match shell.session.read line with
    | (.error error, session) => (some (.error (.parse error)), { shell with session })
    | (.ok command, session) =>
      if session.running then
        let (reply, shell) := { shell with session }.execute source now command
        (some reply, shell)
      else (none, { shell with session })

end Shell

end AttributeShell
