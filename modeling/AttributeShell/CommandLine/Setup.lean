import AttributeShell.CommandLine.Arguments
import AttributeShell.Config.File
import AttributeShell.Shell.Session
import AttributeShell.Source.Cache
import AttributeShell.Source.Snapshot

/-!
What the program works with: its command line, and the configuration that results from it. What is
given on the command line goes before what the configuration file says.
-/

namespace AttributeShell

namespace CommandLine

/-- Puts the settings of the command line over those of a configuration. -/
def Arguments.override (arguments : Arguments) (config : Config) : Config :=
  { config with
    schema :=
      { config.schema with
        file := arguments.schemaFile <|> config.schema.file
        address := arguments.address.getD config.schema.address }
    completion.writableOnly := arguments.writableOnly || config.completion.writableOnly
    display.color := !arguments.noColor && config.display.color
    logging.level :=
      if arguments.veryVerbose then .trace
      else if arguments.verbose then .debug
      else if arguments.quiet then .error
      else config.logging.level }

/-- The home directory and the files that are there. -/
structure Surroundings where
  home : String
  files : Files

structure Setup where
  arguments : Arguments
  config : Config
  /-- Why the configuration file was not used, if it was not. -/
  rejection : Option ConfigError

namespace Setup

/-- Loads the configuration for a command line. One that makes no sense is replaced by the
defaults. -/
def load (surroundings : Surroundings) (arguments : Arguments) : Except ShellError Setup :=
  match Config.load surroundings.files surroundings.home arguments.configFile with
  | .error error => .error error
  | .ok config =>
    match config.validate with
    | .ok () => .ok ⟨arguments, arguments.override config, none⟩
    | .error error =>
      .ok ⟨arguments, arguments.override (Config.default surroundings.home), some error⟩

/-- What the user is told about a configuration file that was not used. -/
def warnings (setup : Setup) : List String :=
  match setup.rejection with
  | none => []
  | some error =>
    [ "Warning: Configuration validation failed: " ++ (ShellError.config error).message,
      "Using default configuration instead." ]

def address (setup : Setup) : Except ShellError Address :=
  (Address.parse setup.config.schema.address).mapError .parse

def session (setup : Setup) : Except ShellError Session := do
  return {
    address := ← setup.address
    writableOnly := setup.config.completion.writableOnly
    colors := setup.config.display.color }

/-- Where the attributes come from: a snapshot whose answers are kept for a while, or nowhere. Time
is in milliseconds. -/
def source (setup : Setup) : Source (Cached Files) :=
  match setup.config.schema.file with
  | some file => (Source.snapshot file).cached (1000 * setup.config.schema.cacheTtl)
  | none => .fixed fun _ => none

def shell (setup : Setup) (files : Files) : Except ShellError (Shell (Cached Files)) := do
  return ⟨← setup.session, .ofInner files⟩

/-- Completes an expression once, at its end if no position is given. -/
def complete (setup : Setup) (files : Files) (expression : String) (cursor : Option Nat) :
    Except ShellError (Option Completion) := do
  let shell ← setup.shell files
  return (shell.complete setup.source 0 expression (cursor.getD (Text.size expression))).1

def addresses (setup : Setup) (files : Files) : Except ShellError (List Address) :=
  match setup.config.schema.file with
  | some file => ((Snapshot.load files file).bind Snapshot.addresses).mapError .schema
  | none => .error (.config (.other "No schema file given"))

end Setup

end CommandLine

end AttributeShell
