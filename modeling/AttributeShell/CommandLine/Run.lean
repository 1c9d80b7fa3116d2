import AttributeShell.CommandLine.CommandShell
import AttributeShell.CommandLine.Setup

/-!
What the program does for a command line. All but a session with the user is settled by the files
that are there.
-/

namespace AttributeShell.CommandLine

def programVersion : String := "0.3.0"

/-- How a run ends: with an exit code, what it prints, and what it complains about, a line each. -/
structure Outcome where
  code : Nat := 0
  output : String := ""
  complaints : List String := []
  deriving Repr, DecidableEq

/-- What is to be done: nothing any more, or a session with the user behind a banner. -/
inductive Task where
  | finish (outcome : Outcome)
  | converse (setup : Setup) (banner : String) (shell : Shell (Cached Files))

def ofLines (lines : List String) : String := String.join (lines.map (· ++ "\n"))

/-- One line stands for all that a library for command lines may print as help or as the usage; the
library's wording is not reproduced. -/
def usage : String := "Usage: attrsh [OPTIONS] [SCHEMA] [COMMAND]"

/-- The outcome for a command line that does not run the program. -/
def Stop.outcome : Stop → Outcome
  | .misuse => { code := 2, complaints := [usage] }
  | .help => { output := ofLines [usage] }
  | .version => { output := ofLines ["attrsh " ++ programVersion] }

def versionReport : List String := ["attrsh version " ++ programVersion, "Rust version: 1.91"]

/-- What `complete` prints: the position of the candidates, and a candidate a line. -/
def completionReport : Option Completion → List String
  | some completion => toString completion.offset :: completion.candidates
  | none => ["-1"]

/-- What `config --validate` prints. -/
def validationReport (surroundings : Surroundings) (file : String) : List String :=
  let verdict :=
    if surroundings.files.exists? file then
      match Config.load surroundings.files surroundings.home (some file) with
      | .error error => "❌ Failed to load configuration: " ++ error.message
      | .ok config =>
        match config.validate with
        | .ok () => "✅ Configuration is valid"
        | .error error =>
          "❌ Configuration validation failed: " ++ (ShellError.config error).message
    else "❌ Configuration file does not exist"
  ["Validating configuration file: " ++ file, verdict]

/-- What `config --show` prints. -/
def configReport (file : String) (config : Config) : List String :=
  ["Configuration file: " ++ file, "", "=== Effective Configuration ===", "", config.text]

def completionScript (shell : String) : Except ShellError String :=
  match CommandShell.ofName? shell with
  | some known => .ok known.script
  | none =>
    .error (.config (.other
      ("Unsupported shell: " ++ shell ++ ". Supported shells: bash, zsh, fish")))

def banner (setup : Setup) : List String :=
  if setup.arguments.quiet then []
  else
    [ "Using attrsh: " ++ programVersion,
      "Schema: " ++ setup.config.schema.file.getD "none",
      "Type 'help' for commands, Tab to complete." ]

namespace Setup

def output (setup : Setup) (surroundings : Surroundings) : Subcommand → Except ShellError String
  | .version => .ok (ofLines versionReport)
  | .completion shell => completionScript shell
  | .config shown validated =>
    let file := setup.arguments.configFile.getD (Config.defaultPath surroundings.home)
    .ok (ofLines ((if validated then validationReport surroundings file else []) ++
      (if shown || !validated then configReport file setup.config else [])))
  | .complete expression cursor => do
    return ofLines (completionReport (← setup.complete surroundings.files expression cursor))
  | .addresses => do
    return ofLines ((← setup.addresses surroundings.files).map Address.text)

def complaint (error : ShellError) : String := "Error: " ++ error.message

def task (setup : Setup) (surroundings : Surroundings) : Task :=
  match setup.arguments.subcommand with
  | some subcommand =>
    match setup.output surroundings subcommand with
    | .ok output => .finish { output, complaints := setup.warnings }
    | .error error => .finish { code := 1, complaints := setup.warnings ++ [complaint error] }
  | none =>
    let banner := ofLines (banner setup)
    match setup.shell surroundings.files with
    | .ok shell => .converse setup banner shell
    | .error error =>
      .finish { code := 1, output := banner, complaints := setup.warnings ++ [complaint error] }

end Setup

def Task.ofArguments (surroundings : Surroundings) (arguments : List String) : Task :=
  match Arguments.parse arguments with
  | .error stop => .finish stop.outcome
  | .ok arguments =>
    match Setup.load surroundings arguments with
    | .error error => .finish { code := 1, complaints := [Setup.complaint error] }
    | .ok setup => setup.task surroundings

/-- The error of a session in which no line can be read. -/
def readError (reason : String) : ShellError := .other ("Read error: " ++ reason)

/-- How a task ends where there is no terminal: no session can be held. -/
def Task.withoutTerminal : Task → Outcome
  | .finish outcome => outcome
  | .converse setup banner _ =>
    { code := 1, output := banner,
      complaints := setup.warnings ++ [Setup.complaint (readError "the input is not a terminal")] }

end AttributeShell.CommandLine
