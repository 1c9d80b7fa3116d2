import AttributeShell.CommandLine.Run

/-!
The program: it reads the files that a command line names, and hands lines to the shell until the
session ends.
-/

namespace AttributeShell.Terminal

/-- What stands at a path on the disk. -/
def contentOf (path : String) : IO FileContent := do
  try
    let bytes ← IO.FS.readBinFile path
    return match String.fromUTF8? bytes with
      | some text => .ok text
      | none => .error .notText
  catch
    | .noFileOrDirectory .. => return .error .notFound
    | .inappropriateType .. => return .error .isDirectory
    | error => return .error (.other error.toString)

def refresh (path : String) (files : Files) : IO Files := return files.put path (← contentOf path)

/-- The home directory; without one, the working directory serves. -/
def home : IO String := do
  match ← IO.getEnv "HOME" with
  | some path => return if path.isEmpty then "." else path
  | none => return "."

open CommandLine

/-- The files that a command line needs: its configuration, and the snapshot that it or the
configuration names. -/
def surroundings (arguments : List String) : IO Surroundings := do
  let home ← home
  match Arguments.parse arguments with
  | .error _ => return ⟨home, .empty⟩
  | .ok parsed =>
    let files ← refresh (parsed.configFile.getD (Config.defaultPath home)) .empty
    match Setup.load ⟨home, files⟩ parsed with
    | .error _ => return ⟨home, files⟩
    | .ok setup =>
      match setup.config.schema.file with
      | some path => return ⟨home, ← refresh path files⟩
      | none => return ⟨home, files⟩

def complain (lines : List String) : IO Unit := lines.forM IO.eprintln

def finish (outcome : Outcome) : IO UInt32 := do
  IO.print outcome.output
  complain outcome.complaints
  return outcome.code.toUInt32

def answer (colors : Bool) : Except ShellError Reply → IO Unit
  | .ok reply => do
    if let some text := reply.text? colors then IO.println text
  | .error error => IO.eprintln (Report.error colors error.message)

/-- Runs lines until the session or the input ends. The snapshot is read again for each line. -/
partial def converse (setup : Setup) (input : IO.FS.Stream) (shell : Shell (Cached Files)) :
    IO Unit := do
  if shell.session.running then
    IO.print shell.session.prompt
    (← IO.getStdout).flush
    let line ← input.getLine
    if !line.isEmpty then
      let files ← match setup.config.schema.file with
        | some path => refresh path shell.source.inner
        | none => pure shell.source.inner
      let shell := { shell with source := { shell.source with inner := files } }
      let (reply, next) := shell.turn setup.source (← IO.monoMsNow) line
      reply.forM (answer shell.session.colors)
      converse setup input next

def run (task : Task) : IO UInt32 := do
  let input ← IO.getStdin
  match task with
  | .converse setup banner shell =>
    if ← input.isTty then
      IO.print banner
      complain setup.warnings
      converse setup input shell
      IO.println "Goodbye!"
      return 0
    else finish task.withoutTerminal
  | .finish outcome => finish outcome

end AttributeShell.Terminal

def main (arguments : List String) : IO UInt32 := do
  let surroundings ← AttributeShell.Terminal.surroundings arguments
  AttributeShell.Terminal.run (.ofArguments surroundings arguments)
