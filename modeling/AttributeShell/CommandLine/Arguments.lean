import AttributeShell.CommandLine.Options

/-!
The command line of the program. Its parts count one after the other: the first that is wrong, or
that asks for help or for the version, decides. No option can be given twice.
-/

namespace AttributeShell.CommandLine

/-- Why a command line does not run the program. -/
inductive Stop where
  | misuse
  | help
  | version
  deriving Repr, DecidableEq

/-- What is done in place of a session. -/
inductive Subcommand where
  | version
  | completion (shell : String)
  | config (shown validated : Bool)
  | complete (expression : String) (cursor : Option Nat)
  | addresses
  deriving Repr, DecidableEq

structure Arguments where
  schemaFile : Option String := none
  address : Option String := none
  configFile : Option String := none
  writableOnly : Bool := false
  noColor : Bool := false
  quiet : Bool := false
  verbose : Bool := false
  veryVerbose : Bool := false
  subcommand : Option Subcommand := none
  deriving Repr, DecidableEq

/-- Gives an option its value, unless it has one. -/
def once {α : Type} (given : Option α) (value : α) : Except Stop (Option α) :=
  if given.isSome then .error .misuse else .ok (some value)

/-- Turns a switch on, unless it is on. -/
def turnOn (given : Bool) : Except Stop Bool := if given then .error .misuse else .ok true

def path (value : String) : Except Stop String :=
  if value.isEmpty then .error .misuse else .ok value

/-- A position: digits, behind a plus sign if there is one, that fit into 64 bits. -/
def position? (value : String) : Option Nat :=
  let digits := match value.toList with
    | '+' :: digits => digits
    | digits => digits
  if digits.isEmpty || !digits.all Char.isDigit then none
  else
    let position := digits.foldl (fun n d => 10 * n + (d.toNat - '0'.toNat)) 0
    if position < Nat.pow 2 64 then some position else none

namespace Subcommand

def names : List String := ["version", "completion", "config", "complete", "addresses", "help"]

/-- The only option of all subcommands. -/
inductive HelpOption where
  | help
  deriving DecidableEq

def helpOnly : Options HelpOption where
  letter? c := if c == 'h' then some .help else none
  long? name := if name = "help" then some .help else none
  takesValue _ := false

/-- The words of a command line without any options. There are at most so many of them. -/
def words (most : Nat) (rest : List String) : Except Stop (List String) :=
  (helpOnly.parts rest).foldlM
    (fun words item =>
      match item with
      | .word text => if words.length < most then .ok (words ++ [text]) else .error .misuse
      | .option .help _ => .error .help
      | .subcommand .. | .misuse => .error .misuse)
    []

inductive ConfigOption where
  | showing
  | validating
  | help
  deriving DecidableEq

def configOptions : Options ConfigOption where
  letter? c := if c == 'h' then some .help else none
  long? name :=
    if name = "show" then some .showing
    else if name = "validate" then some .validating
    else if name = "help" then some .help
    else none
  takesValue _ := false

def readConfig (rest : List String) : Except Stop Subcommand := do
  let (shown, validated) ← (configOptions.parts rest).foldlM
    (fun (shown, validated) item =>
      match item with
      | .option .showing _ => do return (← turnOn shown, validated)
      | .option .validating _ => do return (shown, ← turnOn validated)
      | .option .help _ => .error .help
      | .word _ | .subcommand .. | .misuse => .error .misuse)
    (false, false)
  return .config shown validated

inductive CompleteOption where
  | cursor
  | help
  deriving DecidableEq

def completeOptions : Options CompleteOption where
  letter? c := if c == 'h' then some .help else none
  long? name :=
    if name = "cursor" then some .cursor else if name = "help" then some .help else none
  takesValue
    | .cursor => true
    | .help => false
  anyFirstWord := true

def readComplete (rest : List String) : Except Stop Subcommand := do
  let (expression, cursor) ← (completeOptions.parts rest).foldlM
    (fun (expression, cursor) item =>
      match item with
      | .word text => do return (← once expression text, cursor)
      | .option .cursor value =>
        match value.bind position? with
        | some position => do return (expression, ← once cursor position)
        | none => .error .misuse
      | .option .help _ => .error .help
      | .subcommand .. | .misuse => .error .misuse)
    (none, none)
  match expression with
  | some expression => return .complete expression cursor
  | none => .error .misuse

/-- Reads a subcommand with what follows its name. -/
def read (name : String) (rest : List String) : Except Stop Subcommand :=
  match name with
  | "version" => do
    let _ ← words 0 rest
    return .version
  | "addresses" => do
    let _ ← words 0 rest
    return .addresses
  | "completion" => do
    match ← words 1 rest with
    | [shell] => return .completion shell
    | _ => .error .misuse
  | "config" => readConfig rest
  | "complete" => readComplete rest
  | "help" =>
    match rest with
    | [] => .error .help
    | [name] => .error (if name ∈ names then .help else .misuse)
    | _ => .error .misuse
  | _ => .error .misuse

end Subcommand

inductive MainOption where
  | address
  | writableOnly
  | config
  | noColor
  | quiet
  | verbose
  | veryVerbose
  | help
  | version
  deriving DecidableEq

def mainOptions : Options MainOption where
  letter?
    | 'a' => some .address
    | 'w' => some .writableOnly
    | 'c' => some .config
    | 'q' => some .quiet
    | 'v' => some .verbose
    | 'h' => some .help
    | 'V' => some .version
    | _ => none
  long?
    | "address" => some .address
    | "writable-only" => some .writableOnly
    | "config" => some .config
    | "no-color" => some .noColor
    | "quiet" => some .quiet
    | "verbose" => some .verbose
    | "vv" => some .veryVerbose
    | "help" => some .help
    | "version" => some .version
    | _ => none
  takesValue
    | .address | .config => true
    | .writableOnly | .noColor | .quiet | .verbose | .veryVerbose | .help | .version => false
  subcommands := Subcommand.names

namespace Arguments

def setOption (arguments : Arguments) : MainOption → String → Except Stop Arguments
  | .address, value => do return { arguments with address := ← once arguments.address value }
  | .config, value => do
    return { arguments with configFile := ← once arguments.configFile (← path value) }
  | .writableOnly, _ => do
    return { arguments with writableOnly := ← turnOn arguments.writableOnly }
  | .noColor, _ => do return { arguments with noColor := ← turnOn arguments.noColor }
  | .quiet, _ => do return { arguments with quiet := ← turnOn arguments.quiet }
  | .verbose, _ => do return { arguments with verbose := ← turnOn arguments.verbose }
  | .veryVerbose, _ => do return { arguments with veryVerbose := ← turnOn arguments.veryVerbose }
  | .help, _ => .error .help
  | .version, _ => .error .version

def take (arguments : Arguments) : Item MainOption → Except Stop Arguments
  | .option name value => arguments.setOption name (value.getD "")
  | .word text => do
    return { arguments with schemaFile := ← once arguments.schemaFile (← path text) }
  | .subcommand name rest => do
    return { arguments with subcommand := some (← Subcommand.read name rest) }
  | .misuse => .error .misuse

def parse (arguments : List String) : Except Stop Arguments :=
  (mainOptions.parts arguments).foldlM take {}

end Arguments

end AttributeShell.CommandLine
