import AttributeShell.Text.Split

/-!
The conventions of command lines. An option has a long name behind two hyphens or a letter behind
one; letters may share a hyphen. A value stands behind an equals sign, behind its letter or in the
next word. Two hyphens alone end the options.
-/

namespace AttributeShell.CommandLine

/-- The options that a command line may have, and the words that begin a subcommand. -/
structure Options (ι : Type) where
  letter? : Char → Option ι
  long? : String → Option ι
  takesValue : ι → Bool
  subcommands : List String := []
  /-- Whether the first word may look like an option that is not known. -/
  anyFirstWord : Bool := false

inductive Item (ι : Type) where
  | option (name : ι) (value : Option String)
  | word (text : String)
  /-- A subcommand, and the command line behind it. -/
  | subcommand (name : String) (rest : List String)
  /-- What follows no convention. -/
  | misuse
  deriving Repr, DecidableEq

inductive Look where
  /-- Two hyphens alone. -/
  | endOfOptions
  | long (name : String) (value : Option String)
  | letters (cs : List Char)
  | word

/-- A single hyphen is a word. -/
def Look.of (argument : String) : Look :=
  match argument.toList with
  | ['-', '-'] => .endOfOptions
  | '-' :: '-' :: name =>
    match Text.splitOnce '=' name with
    | some (name, value) => .long (String.ofList name) (some (String.ofList value))
    | none => .long (String.ofList name) none
  | '-' :: c :: cs => .letters (c :: cs)
  | _ => .word

/-- Whether an argument can be the value of the option before it. -/
def isValue (argument : String) : Bool :=
  match Look.of argument with
  | .word => true
  | .endOfOptions | .long .. | .letters _ => false

namespace Options

variable {ι : Type} (options : Options ι)

/-- An option under its long name; if its value is still to come, the option comes second. -/
def ofLong (name : ι) (value : Option String) : List (Item ι) × Option ι :=
  match options.takesValue name, value with
  | true, some value => ([.option name (some value)], none)
  | true, none => ([], some name)
  | false, some _ => ([.misuse], none)
  | false, none => ([.option name none], none)

/-- The value behind a letter, for which an equals sign may stand. -/
def attached : List Char → String
  | '=' :: value => String.ofList value
  | value => String.ofList value

/-- Options under their letters; one whose value is still to come comes second. -/
def ofLetters : List Char → List (Item ι) × Option ι
  | [] => ([], none)
  | c :: cs =>
    match options.letter? c with
    | none => ([.misuse], none)
    | some name =>
      if options.takesValue name then
        if cs.isEmpty then ([], some name) else ([.option name (some (attached cs))], none)
      else
        let (more, last) := ofLetters cs
        (.option name none :: more, last)

/-- The items of an argument, unless it is a word. -/
def read? (anyWord : Bool) : Look → Option (List (Item ι) × Option ι)
  | .word | .endOfOptions => none
  | .long name value =>
    match options.long? name with
    | some name => some (options.ofLong name value)
    | none => if anyWord then none else some ([.misuse], none)
  | .letters cs =>
    if anyWord && cs.any fun c => (options.letter? c).isNone then none
    else some (options.ofLetters cs)

/-- The parts of a command line. A word may look like an unknown option if the second argument says
so. -/
def items : Bool → List String → List (Item ι)
  | _, [] => []
  | anyWord, argument :: rest =>
    if argument ∈ options.subcommands then [.subcommand argument rest]
    else
      match Look.of argument with
      | .endOfOptions => rest.map .word
      | look =>
        match options.read? anyWord look with
        | none => .word argument :: items false rest
        | some (read, none) => read ++ items anyWord rest
        | some (read, some name) =>
          match rest with
          | [] => read ++ [.misuse]
          | value :: rest =>
            if isValue value then read ++ .option name (some value) :: items anyWord rest
            else read ++ [.misuse]

def parts (arguments : List String) : List (Item ι) := options.items options.anyFirstWord arguments

end Options

end AttributeShell.CommandLine
