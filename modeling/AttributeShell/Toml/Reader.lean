import AttributeShell.Decimal.Binary64
import AttributeShell.Text.Split
import AttributeShell.Toml.Basic

/-!
Reading TOML documents. Each reader takes the characters that are left and gives back a value with
the characters after it, or nothing if the text is not of its form.
-/

namespace AttributeShell.Toml

/-- What is left of the text after a value. -/
abbrev Reader (α : Type) := List Char → Option (α × List Char)

def isSpace (c : Char) : Bool := c == ' ' || c == '\t'

def skipSpace (cs : List Char) : List Char := cs.dropWhile isSpace

/-- The controls that may stand nowhere. The tab and the line feed are no such controls. -/
def isForbidden (c : Char) : Bool := (c.toNat < 0x20 && c != '\t' && c != '\n') || c.toNat == 0x7F

/-- What follows the end of a line, if there is one. -/
def newline? : List Char → Option (List Char)
  | '\n' :: rest => some rest
  | '\r' :: '\n' :: rest => some rest
  | _ => none

/-- What follows a comment: the end of its line, or of the text. -/
def skipComment : List Char → Option (List Char)
  | [] => some []
  | c :: cs =>
    if c == '\n' then some (c :: cs)
    else if c == '\r' then if cs.head? = some '\n' then some (c :: cs) else none
    else if isForbidden c then none
    else skipComment cs

def skipLines : Nat → List Char → Option (List Char)
  | 0, cs => some cs
  | bound + 1, cs =>
    match skipSpace cs with
    | '#' :: rest => do skipLines bound (← skipComment rest)
    | rest =>
      match newline? rest with
      | some rest => skipLines bound rest
      | none => some rest

/-- What follows the end of a line that may have a comment. -/
def endLine (cs : List Char) : Option (List Char) :=
  match skipSpace cs with
  | [] => some []
  | '#' :: rest => do
    match ← skipComment rest with
    | [] => some []
    | rest => newline? rest
  | rest => newline? rest

def isBareKeyCharacter (c : Char) : Bool := c.isAlphanum || c == '_' || c == '-'

def hexValue? (c : Char) : Option Nat :=
  if c.isDigit then some (c.toNat - '0'.toNat)
  else if 'a' ≤ c ∧ c ≤ 'f' then some (c.toNat - 'a'.toNat + 10)
  else if 'A' ≤ c ∧ c ≤ 'F' then some (c.toNat - 'A'.toNat + 10)
  else none

/-- The character with a number of so many hexadecimal digits. -/
def readCode (digits : Nat) : Reader Char := fun cs => do
  let shown := cs.take digits
  if shown.length < digits then none
  else
    let values ← shown.mapM hexValue?
    let code := values.foldl (fun n d => n * 16 + d) 0
    if code.isValidChar then some (Char.ofNat code, cs.drop digits) else none

def readEscape : Reader Char
  | 'b' :: rest => some ('\x08', rest)
  | 't' :: rest => some ('\t', rest)
  | 'n' :: rest => some ('\n', rest)
  | 'f' :: rest => some ('\x0c', rest)
  | 'r' :: rest => some ('\r', rest)
  | 'e' :: rest => some ('\x1b', rest)
  | '"' :: rest => some ('"', rest)
  | '\\' :: rest => some ('\\', rest)
  | 'x' :: rest => readCode 2 rest
  | 'u' :: rest => readCode 4 rest
  | 'U' :: rest => readCode 8 rest
  | _ => none

/-- A string in double quotes, from behind the opening one. -/
def readBasic : Nat → Reader (List Char)
  | 0, _ => none
  | _ + 1, [] => none
  | bound + 1, c :: cs =>
    if c == '"' then some ([], cs)
    else if c == '\\' then do
      let (escaped, rest) ← readEscape cs
      let (more, rest) ← readBasic bound rest
      return (escaped :: more, rest)
    else if c == '\n' || isForbidden c then none
    else do
      let (more, rest) ← readBasic bound cs
      return (c :: more, rest)

/-- A string in single quotes, from behind the opening one. Nothing in it is escaped. -/
def readLiteral : Reader (List Char)
  | [] => none
  | c :: cs =>
    if c == '\'' then some ([], cs)
    else if c == '\n' || isForbidden c then none
    else do
      let (more, rest) ← readLiteral cs
      return (c :: more, rest)

/-- The end of a string of many lines, which is marked by three quotes. Up to two quotes right
before them belong to the string. -/
def closeLong (quote : Char) (cs : List Char) : Option (List Char × List Char) :=
  let quotes := cs.takeWhile (· == quote)
  if 3 ≤ quotes.length ∧ quotes.length ≤ 5 then
    some (List.replicate (quotes.length - 3) quote, cs.drop quotes.length)
  else if 5 < quotes.length then some ([quote, quote], cs.drop 5)
  else none

/-- What follows a backslash at the end of a line, behind all white space and ends of lines. -/
def skipFold : List Char → List Char
  | [] => []
  | '\r' :: '\n' :: rest => skipFold rest
  | c :: rest => if isSpace c || c == '\n' then skipFold rest else c :: rest

/-- Whether nothing but white space is left of a line. -/
def isFold (cs : List Char) : Bool := (newline? (skipSpace cs)).isSome

/-- Whether the first character can stand in a string of many lines. The ends of its lines belong to
it as they are written; a carriage return only stands right before a line feed. -/
def isLongText : List Char → Bool
  | [] => false
  | '\r' :: rest => rest.head? == some '\n'
  | c :: _ => !isForbidden c

/-- A string of many lines in double quotes, from behind the opening ones. -/
def readLongBasic : Nat → Reader (List Char)
  | 0, _ => none
  | _ + 1, [] => none
  | bound + 1, c :: cs =>
    match if c == '"' then closeLong '"' (c :: cs) else none with
    | some closed => some closed
    | none =>
      if c == '\\' then
        if isFold cs then readLongBasic bound (skipFold cs)
        else do
          let (escaped, rest) ← readEscape cs
          let (more, rest) ← readLongBasic bound rest
          return (escaped :: more, rest)
      else if isLongText (c :: cs) then do
        let (more, rest) ← readLongBasic bound cs
        return (c :: more, rest)
      else none

/-- A string of many lines in single quotes, from behind the opening ones. -/
def readLongLiteral : Nat → Reader (List Char)
  | 0, _ => none
  | _ + 1, [] => none
  | bound + 1, c :: cs =>
    match if c == '\'' then closeLong '\'' (c :: cs) else none with
    | some closed => some closed
    | none =>
      if isLongText (c :: cs) then do
        let (more, rest) ← readLongLiteral bound cs
        return (c :: more, rest)
      else none

/-- A line end right behind the opening quotes does not belong to a string of many lines. -/
def dropFirstNewline (cs : List Char) : List Char := (newline? cs).getD cs

def readString : Reader String := fun cs =>
  let text (found : Option (List Char × List Char)) : Option (String × List Char) :=
    found.map fun (characters, rest) => (String.ofList characters, rest)
  match cs with
  | '"' :: '"' :: '"' :: rest => text (readLongBasic (rest.length + 1) (dropFirstNewline rest))
  | '\'' :: '\'' :: '\'' :: rest => text (readLongLiteral (rest.length + 1) (dropFirstNewline rest))
  | '"' :: rest => text (readBasic (rest.length + 1) rest)
  | '\'' :: rest => text (readLiteral rest)
  | _ => none

def readKeyPart : Reader String := fun cs =>
  match cs with
  | '"' :: rest => do
    let (characters, rest) ← readBasic (rest.length + 1) rest
    return (String.ofList characters, rest)
  | '\'' :: rest => do
    let (characters, rest) ← readLiteral rest
    return (String.ofList characters, rest)
  | cs =>
    let bare := cs.takeWhile isBareKeyCharacter
    if bare.isEmpty then none
    else some (String.ofList bare, cs.dropWhile isBareKeyCharacter)

def readMoreKey : Nat → Reader (List String)
  | 0, cs => some ([], cs)
  | bound + 1, cs =>
    match skipSpace cs with
    | '.' :: rest => do
      let (part, rest) ← readKeyPart (skipSpace rest)
      let (more, rest) ← readMoreKey bound rest
      return (part :: more, rest)
    | rest => some ([], rest)

def maxKeyParts : Nat := 80

/-- A key: the parts before the last one, and the last one. White space around it is skipped. -/
def readKey : Reader (List String × String) := fun cs => do
  let (first, rest) ← readKeyPart (skipSpace cs)
  let (more, rest) ← readMoreKey rest.length rest
  let parts := first :: more
  if maxKeyParts < parts.length then none
  else return ((parts.dropLast, parts.getLastD first), rest)

/-- Digits, among which single underscores may stand. The underscores are left out. -/
def digits? (isDigit : Char → Bool) : List Char → Option (List Char)
  | [] => none
  | [c] => if isDigit c then some [c] else none
  | c :: '_' :: rest => if isDigit c then (digits? isDigit rest).map (c :: ·) else none
  | c :: rest => if isDigit c then (digits? isDigit rest).map (c :: ·) else none

def valueOf (base : Nat) (digits : List Char) : Nat :=
  digits.foldl (fun n d => n * base + (hexValue? d).getD 0) 0

/-- Decimal digits of which the first is not zero, unless it is alone. -/
def wholeDigits? (cs : List Char) : Option (List Char) := do
  let digits ← digits? Char.isDigit cs
  if 1 < digits.length ∧ digits.head? = some '0' then none else some digits

/-- A number without its sign, and whether it is negative. -/
def splitSign : List Char → Bool × List Char
  | '-' :: rest => (true, rest)
  | '+' :: rest => (false, rest)
  | rest => (false, rest)

/-- An integer. In range is what 128 bits can hold, with a sign bit or without. -/
def integerOf (value : Int) : Toml :=
  .integer (if -(Nat.pow 2 127) ≤ value ∧ value < Nat.pow 2 128 then some value else none)

/-- What follows the mark of a base. There may be no digits at all, but then the integer has no
value. -/
def markedInteger? (base : Nat) (isDigit : Char → Bool) : List Char → Option Toml
  | [] => some (.integer none)
  | cs => (digits? isDigit cs).map fun digits => integerOf (valueOf base digits)

def isHexDigit (c : Char) : Bool := (hexValue? c).isSome

/-- Whether every underscore stands between two digits of any base. -/
def spacesDigits (cs : List Char) : Bool :=
  let pieces := Text.pieces '_' cs
  pieces.tail.all (fun piece => piece.head?.any isHexDigit)
    && pieces.dropLast.all fun piece => piece.getLast?.any isHexDigit

def isExponentLetter (c : Char) : Bool := c == 'e' || c == 'E'

/-- Whether a text starts like a decimal integer with underscores and goes on like no other number,
and without a space. What is no decimal digit then only shows when the integer is read. -/
def isSpacedInteger (cs : List Char) : Bool :=
  let behind := cs.dropWhile Char.isDigit
  cs.head?.any (fun c => c.isDigit && c != '0') && behind.head? == some '_'
    && !behind.any (fun c => c == '.' || c == ' ' || isExponentLetter c) && spacesDigits cs

def integer? (cs : List Char) : Option Toml :=
  match cs with
  | '0' :: 'x' :: rest => markedInteger? 16 isHexDigit rest
  | '0' :: 'o' :: rest => markedInteger? 8 (fun c => '0' ≤ c && c ≤ '7') rest
  | '0' :: 'b' :: rest => markedInteger? 2 (fun c => c == '0' || c == '1') rest
  | cs =>
    let (negative, rest) := splitSign cs
    match wholeDigits? rest with
    | some digits =>
      let value := valueOf 10 digits
      some (integerOf (if negative then -(value : Int) else value))
    | none => if isSpacedInteger rest then some (.integer none) else none

/-- Whether a decimal is in the range of floating-point numbers. Far outside of their powers of ten
the digits need not be looked at. -/
def isInRange (digits : List Char) (exponent : Int) : Bool :=
  let significand := valueOf 10 digits
  let power := exponent + digits.length
  if significand = 0 ∨ power < -400 then true
  else if 400 + digits.length < power then false
  else
    (Decimal.Binary64.ofQuotient (significand * Nat.pow 10 exponent.toNat)
      (Nat.pow 10 (-exponent).toNat)).isSome

def float? (cs : List Char) : Option Toml := do
  let (_, cs) := splitSign cs
  if cs = "inf".toList ∨ cs = "nan".toList then some (.float true)
  else
    let mantissa := cs.takeWhile (!isExponentLetter ·)
    let tail := cs.dropWhile (!isExponentLetter ·)
    let whole := mantissa.takeWhile (· != '.')
    let fraction := mantissa.dropWhile (· != '.')
    if tail.isEmpty && fraction.isEmpty then none
    else
      let whole ← wholeDigits? whole
      let fraction ← if fraction.isEmpty then some [] else digits? Char.isDigit (fraction.drop 1)
      let exponent : Int ←
        if tail.isEmpty then some 0
        else do
          let (negative, rest) := splitSign (tail.drop 1)
          let value := valueOf 10 (← digits? Char.isDigit rest)
          some (if negative then -(value : Int) else (value : Int))
      return .float (isInRange (whole ++ fraction) (exponent - (fraction.length : Int)))

def twoDigits? (low high : Nat) : Reader Unit
  | a :: b :: rest =>
    if a.isDigit && b.isDigit && low ≤ valueOf 10 [a, b] && valueOf 10 [a, b] ≤ high then
      some ((), rest)
    else none
  | _ => none

def isLeapYear (year : Nat) : Bool :=
  year % 4 == 0 && (year % 100 != 0 || year % 400 == 0)

def daysIn (year month : Nat) : Nat :=
  if month = 2 then if isLeapYear year then 29 else 28
  else if month = 4 ∨ month = 6 ∨ month = 9 ∨ month = 11 then 30
  else 31

/-- A date: a year, a month and a day with hyphens between them. -/
def readDate : Reader Unit
  | y₁ :: y₂ :: y₃ :: y₄ :: '-' :: m₁ :: m₂ :: '-' :: d₁ :: d₂ :: rest =>
    let year := [y₁, y₂, y₃, y₄]
    let month := [m₁, m₂]
    let day := [d₁, d₂]
    if (year ++ month ++ day).all Char.isDigit
        && 1 ≤ valueOf 10 month && valueOf 10 month ≤ 12
        && 1 ≤ valueOf 10 day && valueOf 10 day ≤ daysIn (valueOf 10 year) (valueOf 10 month)
    then some ((), rest)
    else none
  | _ => none

def readSecondFraction : Reader Unit
  | '.' :: rest =>
    if (rest.takeWhile Char.isDigit).isEmpty then none else some ((), rest.dropWhile Char.isDigit)
  | rest => some ((), rest)

/-- A time: hours and minutes, and seconds if there are any. -/
def readTime : Reader Unit := fun cs => do
  let (_, rest) ← twoDigits? 0 23 cs
  match rest with
  | ':' :: rest =>
    let (_, rest) ← twoDigits? 0 59 rest
    match rest with
    | ':' :: rest =>
      let (_, rest) ← twoDigits? 0 60 rest
      readSecondFraction rest
    | rest => some ((), rest)
  | _ => none

/-- The distance of a time from the universal one. -/
def isOffset : List Char → Bool
  | [] => true
  | ['Z'] | ['z'] => true
  | sign :: rest =>
    (sign == '+' || sign == '-') &&
      match twoDigits? 0 23 rest with
      | some ((), ':' :: rest) => ((twoDigits? 0 59 rest).map (·.2)) == some []
      | _ => false

def isDateSeparator (c : Char) : Bool := c == 'T' || c == 't' || c == ' '

def moment? (cs : List Char) : Option Toml :=
  match readDate cs with
  | some ((), []) => some .moment
  | some ((), separator :: rest) =>
    if isDateSeparator separator then
      match readTime rest with
      | some ((), rest) => if isOffset rest then some .moment else none
      | none => none
    else none
  | none =>
    match readTime cs with
    | some ((), []) => some .moment
    | _ => none

/-- A value that is written without quotes or brackets. -/
def scalar? (cs : List Char) : Option Toml :=
  if cs = "true".toList then some (.boolean true)
  else if cs = "false".toList then some (.boolean false)
  else
    match integer? cs with
    | some value => some value
    | none =>
      match float? cs with
      | some value => some value
      | none => moment? cs

/-- The characters that end such a value wherever they stand. -/
def endsScalar (c : Char) : Bool :=
  c == '\n' || c == '\r' || c == ',' || c == '[' || c == ']' || c == '\x7b' || c == '\x7d'
    || c == '#' || c == '='

/-- Whether such a value goes on behind white space. It does so with any word, but not with a
string. -/
def goesOn (cs : List Char) : Bool :=
  (skipSpace cs).head?.any fun c => !endsScalar c && c != '"' && c != '\''

/-- Splits such a value off, with the white space inside it. -/
def splitScalar : List Char → List Char × List Char
  | [] => ([], [])
  | c :: cs =>
    if endsScalar c || isSpace c && !goesOn cs then ([], c :: cs)
    else
      let (more, rest) := splitScalar cs
      (c :: more, rest)

def readScalar : Reader Toml := fun cs => do
  let (word, rest) := splitScalar cs
  return (← scalar? word, rest)

/-- What may be skipped between the parts of a value, or of a key and its value. -/
abbrev Gap := List Char → Option (List Char)

def lineGap : Gap := fun cs => some (skipSpace cs)

def wideGap : Gap := fun cs => skipLines cs.length cs

/-- The items of an array, from behind its opening bracket or a comma. -/
def readItems (item : Reader Toml) : Nat → Reader (List Toml)
  | 0, _ => none
  | bound + 1, cs => do
    match ← wideGap cs with
    | ']' :: rest => some ([], rest)
    | rest =>
      let (first, rest) ← item rest
      match ← wideGap rest with
      | ']' :: rest => some ([first], rest)
      | ',' :: rest =>
        let (more, rest) ← readItems item bound rest
        return (first :: more, rest)
      | _ => none

def readPair (gap : Gap) (item : Reader Toml) :
    Reader ((List String × String) × Toml) := fun cs => do
  let (key, rest) ← readKey cs
  match ← gap rest with
  | '=' :: rest =>
    let (value, rest) ← item (← gap rest)
    return ((key, value), rest)
  | _ => none

/-- The pairs of a table between braces, from behind the opening one or a comma. They can go over
many lines; only a key stays on one. -/
def readPairs (item : Reader Toml) : Nat → TomlTable → Reader TomlTable
  | 0, _, _ => none
  | bound + 1, filled, cs => do
    match ← wideGap cs with
    | '\x7d' :: rest => some (filled, rest)
    | rest =>
      let (((path, key), value), rest) ← readPair wideGap item rest
      let filled ← filled.defineAt path key value
      match ← wideGap rest with
      | '\x7d' :: rest => some (filled, rest)
      | ',' :: rest => readPairs item bound filled rest
      | _ => none

def readValue : Nat → Reader Toml
  | depth, cs =>
    match cs with
    | '"' :: _ | '\'' :: _ => do
      let (text, rest) ← readString cs
      return (.string text, rest)
    | '[' :: rest =>
      match depth with
      | 0 => none
      | inner + 1 => do
        let (items, rest) ← readItems (readValue inner) (rest.length + 1) rest
        return (.array items false, rest)
    | '\x7b' :: rest =>
      match depth with
      | 0 => none
      | inner + 1 => do
        let (filled, rest) ← readPairs (readValue inner) (rest.length + 1) ⟨.inlined, []⟩ rest
        return (filled.toToml, rest)
    | cs => readScalar cs

def maxDepth : Nat := 80

/-- A document that is being read: its tables, and the keys of the header that applies. -/
structure Document where
  root : TomlTable
  header : List String

/-- The table of a header, or one of an array of tables. -/
def openHeader (document : Document) (path : List String) (key : String) (isItem : Bool) :
    Option Document := do
  let change := if isItem then TomlTable.openItem key else TomlTable.openTable key
  let root ← document.root.alter false change path
  return ⟨root, path ++ [key]⟩

/-- One line of a document, which is a header, a key with its value, or nothing. -/
def readLine (document : Document) (cs : List Char) : Option (Document × List Char) :=
  match skipSpace cs with
  | '[' :: '[' :: rest => do
    let ((path, key), rest) ← readKey rest
    match skipSpace rest with
    | ']' :: ']' :: rest => return (← openHeader document path key true, ← endLine rest)
    | _ => none
  | '[' :: rest => do
    let ((path, key), rest) ← readKey rest
    match skipSpace rest with
    | ']' :: rest => return (← openHeader document path key false, ← endLine rest)
    | _ => none
  | [] => some (document, [])
  | rest =>
    match endLine rest with
    | some rest => some (document, rest)
    | none => do
      let (((path, key), value), rest) ← readPair lineGap (readValue maxDepth) rest
      let root ← document.root.alter false (TomlTable.defineAt path key value) document.header
      return ({ document with root }, ← endLine rest)

/-- The lines of a document. The first argument bounds their number. -/
def readLines : Nat → Document → List Char → Option Document
  | _, document, [] => some document
  | 0, _, _ :: _ => none
  | bound + 1, document, c :: cs => do
    let (document, rest) ← readLine document (c :: cs)
    readLines bound document rest

/-- The table of a document. A byte order mark at its front is skipped. -/
def parse (text : String) : Option TomlTable :=
  let cs := match text.toList with
    | '\ufeff' :: rest => rest
    | cs => cs
  (readLines (cs.length + 1) ⟨⟨.header, []⟩, []⟩ cs).map (·.root)

end AttributeShell.Toml
