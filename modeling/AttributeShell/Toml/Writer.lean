/-!
Writing TOML strings. A string is written in double quotes if nothing in it has to be escaped, else
in single quotes if they can hold it, else in three quotes of either kind, and with escapes as a
last resort. In three quotes a text of many lines starts on a line of its own.
-/

namespace AttributeShell.Toml

/-- The greatest number of equal characters in a row. -/
def longestRun (c : Char) : List Char → Nat → Nat
  | [], _ => 0
  | d :: ds, current =>
    if d = c then max (current + 1) (longestRun c ds (current + 1)) else longestRun c ds 0

/-- Controls that can only be written as escapes; the tab and the line feed are none of them. -/
def needsCode (c : Char) : Bool :=
  (c.toNat < 0x20 && c != '\t' && c != '\n') || c.toNat == 0x7F

/-- How the characters of a string are enclosed. -/
inductive Quoting where
  | basic
  | literal
  | longBasic
  | longLiteral
  deriving Repr, DecidableEq

/-- The first way of quoting that needs no escape, or the one that escapes. -/
def Quoting.of (cs : List Char) : Quoting :=
  let code := cs.any needsCode
  let newline := cs.contains '\n'
  let backslash := cs.contains '\\'
  let double := longestRun '"' cs 0
  let single := longestRun '\'' cs 0
  if !code && !backslash && double == 0 && !newline then .basic
  else if !code && single == 0 && !newline then .literal
  else if !code && !backslash && double ≤ 2 then .longBasic
  else if !code && single ≤ 2 then .longLiteral
  else if newline then .longBasic
  else .basic

def fourHexDigits (n : Nat) : List Char :=
  let digits := (Nat.toDigits 16 n).map Char.toUpper
  List.replicate (4 - digits.length) '0' ++ digits

def escape (c : Char) : List Char :=
  if c == '\x08' then ['\\', 'b']
  else if c == '\t' then ['\\', 't']
  else if c == '\n' then ['\\', 'n']
  else if c == '\x0c' then ['\\', 'f']
  else if c == '\r' then ['\\', 'r']
  else if c == '"' then ['\\', '"']
  else if c == '\\' then ['\\', '\\']
  else ['\\', 'u'] ++ fourHexDigits c.toNat

/-- The characters between double quotes. The second argument counts the quotes right before; over
many lines two of them in a row, and line feeds, stand as they are. -/
def escapeAll (long : Bool) : List Char → Nat → List Char
  | [], _ => []
  | c :: cs, quotes =>
    if c == '"' then
      if long && quotes < 2 then c :: escapeAll long cs (quotes + 1)
      else escape c ++ escapeAll long cs 0
    else if c == '\n' && long then c :: escapeAll long cs 0
    else if c == '\\' || c.toNat < 0x20 || c.toNat == 0x7F then escape c ++ escapeAll long cs 0
    else c :: escapeAll long cs 0

/-- Three quotes, which can hold more than one line. -/
def longQuotes (quote : Char) : List Char := List.replicate 3 quote

def writeString (text : String) : String :=
  let cs := text.toList
  let lineBreak := if cs.contains '\n' then ['\n'] else []
  String.ofList <|
    match Quoting.of cs with
    | .basic => '"' :: escapeAll false cs 0 ++ ['"']
    | .literal => '\'' :: cs ++ ['\'']
    | .longBasic => longQuotes '"' ++ lineBreak ++ escapeAll true cs 0 ++ longQuotes '"'
    | .longLiteral => longQuotes '\'' ++ lineBreak ++ cs ++ longQuotes '\''

end AttributeShell.Toml
