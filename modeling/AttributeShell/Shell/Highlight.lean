import AttributeShell.Command
import AttributeShell.Style

/-!
Colouring an input line while it is typed. A line is cut into styled pieces which together are the
line: a word of the shell with what follows it, or an attribute path with the part of it that is
wrong.
-/

namespace AttributeShell.Highlight

structure Piece where
  style : Style
  text : String
  deriving Repr, DecidableEq

inductive Token where
  | name
  | separator
  | index
  | other
  deriving Repr, DecidableEq

def Token.style : Token → Style
  | name => { foreground := some .cyan }
  | separator => { foreground := some .darkGray }
  | index => { foreground := some .purple }
  | other => .plain

/-- The class of a character, inside of brackets or not. -/
def token (inBrackets : Bool) (c : Char) : Token :=
  if isSeparator c then .separator
  else if inBrackets && c.isDigit then .index
  else if isNameCharacter c then .name
  else .other

/-- Whether what follows a character is inside of brackets. -/
def bracketsAfter (inBrackets : Bool) (c : Char) : Bool :=
  if c == '[' then true else if c == ']' then false else inBrackets

/-- The characters of a path with their classes. -/
def tokens : Bool → List Char → List (Token × Char)
  | _, [] => []
  | inBrackets, c :: cs => (token inBrackets c, c) :: tokens (bracketsAfter inBrackets c) cs

/-- Neighbours of one class together. -/
def runs : List (Token × Char) → List (Token × List Char)
  | [] => []
  | (kind, c) :: rest =>
    match runs rest with
    | (next, run) :: more =>
      if kind = next then (kind, c :: run) :: more else (kind, [c]) :: (next, run) :: more
    | [] => [(kind, [c])]

/-- A piece, unless there is nothing in it. -/
def piece (style : Style) (text : List Char) : List Piece :=
  if text.isEmpty then [] else [⟨style, String.ofList text⟩]

def wrong : Style := { foreground := some .red, underline := true }

/-- Where a path ends, and how what follows is shown: plain if it does not belong to the path, and
marked if the path is wrong there. -/
def tailOf (path : String) : Nat × Style :=
  match AttributePath.parse path with
  | .ok parsed => (parsed.haltedAt.getD (Text.size path), .plain)
  | .error error => (min (error.offset?.getD 0) (Text.size path), wrong)

def ofPath (path : String) : List Piece :=
  let (stop, style) := tailOf path
  let (valid, tail) :=
    match Text.takeBytes path.toList stop, Text.dropBytes path.toList stop with
    | some valid, some tail => (valid, tail)
    | _, _ => ([], path.toList)
  (runs (tokens false valid)).map (fun run => ⟨run.1.style, String.ofList run.2⟩)
    ++ piece style tail

/-- The pieces of a line that starts with a word of the shell. -/
def ofCommand (line : List Char) : List Piece :=
  ⟨{ foreground := some .blue, bold := true }, String.ofList (Text.firstWord line)⟩
    :: piece { foreground := some .green } (Text.afterFirstWord line)

def line (text : String) : List Piece :=
  let body := Text.dropBlank text.toList
  piece .plain (Text.takeBlank text.toList) ++
    if Command.isShellCommand (String.ofList (Text.dropBlankEnd body)) then ofCommand body
    else ofPath (String.ofList body)

/-- The pieces of a line, a single plain one if highlighting is off. -/
def pieces (enabled : Bool) (text : String) : List Piece :=
  if enabled then line text else [⟨.plain, text⟩]

end AttributeShell.Highlight
