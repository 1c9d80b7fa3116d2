import AttributeShell.Json.Basic

/-!
Reading JSON texts. Each reader takes the characters that are left and gives back a value with the
characters after it, or nothing if the text is not of its form. A text is refused if it nests deeper
than `maxDepth`, if a number is out of range, and if an escape names half of a character.
-/

namespace AttributeShell.Json

/-- What is left of the text after a value. -/
abbrev Reader (α : Type) := List Char → Option (α × List Char)

def isSpace (c : Char) : Bool := c == ' ' || c == '\n' || c == '\t' || c == '\r'

def skipSpace (cs : List Char) : List Char := cs.dropWhile isSpace

def expect : List Char → List Char → Option (List Char)
  | [], cs => some cs
  | _ :: _, [] => none
  | w :: word, c :: cs => if w == c then expect word cs else none

def digitValue (c : Char) : Nat := c.toNat - '0'.toNat

/-- The greatest integer that is kept as one. -/
def maxNatural : Nat := Nat.pow 2 64 - 1

/-- Takes digits into a significand as long as it stays an integer of 64 bits, and says how many of
them it took. -/
def absorb : Nat → List Char → Nat × Nat
  | significand, [] => (significand, 0)
  | significand, d :: digits =>
    let next := significand * 10 + digitValue d
    if maxNatural < next then (significand, 0)
    else
      let (result, taken) := absorb next digits
      (result, taken + 1)

/-- The exponent of a number, if it has one; the digits behind its letter must not be missing. -/
def readExponent : Reader (Option Int)
  | [] => some (none, [])
  | c :: cs =>
    if c == 'e' || c == 'E' then
      let (negative, rest) := match cs with
        | '-' :: rest => (true, rest)
        | '+' :: rest => (false, rest)
        | rest => (false, rest)
      let digits := rest.takeWhile Char.isDigit
      if digits.isEmpty then none
      else
        let value := digits.foldl (fun n d => n * 10 + digitValue d) 0
        some (some (if negative then -(value : Int) else value), rest.dropWhile Char.isDigit)
    else some (none, c :: cs)

/-- The digits behind the point of a number, if it has one; they must not be missing. -/
def readFraction : Reader (Option (List Char))
  | '.' :: rest =>
    let digits := rest.takeWhile Char.isDigit
    if digits.isEmpty then none else some (some digits, rest.dropWhile Char.isDigit)
  | rest => some (none, rest)

/-- The integer digits: a single zero, or digits of which the first is not zero. -/
def readWhole : Reader (List Char)
  | '0' :: rest => if (rest.headD ' ').isDigit then none else some (['0'], rest)
  | rest =>
    let digits := rest.takeWhile Char.isDigit
    if digits.isEmpty then none else some (digits, rest.dropWhile Char.isDigit)

/-- The number of an integer, or the floating-point number nearest to it if it is out of range. The
negative zero is a floating-point number. -/
def integer (negative : Bool) (significand : Nat) : Option JsonNumber :=
  if negative then
    if significand = 0 ∨ Nat.pow 2 63 < significand then
      (Decimal.Binary64.ofDecimal true significand 0).map .float
    else some (.negative significand)
  else some (.natural significand)

/-- The number of the parts that were read. Digits that do not fit into the significand only count
for their place. -/
def numberOfParts (negative : Bool) (whole : List Char) (fraction : Option (List Char))
    (exponent : Option Int) : Option JsonNumber :=
  let (significand, taken) := absorb 0 whole
  let dropped := whole.length - taken
  match fraction, exponent with
  | none, none =>
    if dropped = 0 then integer negative significand
    else (Decimal.Binary64.ofDecimal negative significand dropped).map .float
  | _, _ =>
    let (significand, behind) := absorb significand (fraction.getD [])
    let power := (dropped : Int) - (behind : Int) + exponent.getD 0
    (Decimal.Binary64.ofDecimal negative significand power).map .float

def readNumber : Reader JsonNumber := fun cs => do
  let (negative, cs) := match cs with
    | '-' :: rest => (true, rest)
    | rest => (false, rest)
  let (whole, cs) ← readWhole cs
  let (fraction, cs) ← readFraction cs
  let (exponent, cs) ← readExponent cs
  let value ← numberOfParts negative whole fraction exponent
  return (value, cs)

def hexValue? (c : Char) : Option Nat :=
  if c.isDigit then some (digitValue c)
  else if 'a' ≤ c ∧ c ≤ 'f' then some (c.toNat - 'a'.toNat + 10)
  else if 'A' ≤ c ∧ c ≤ 'F' then some (c.toNat - 'A'.toNat + 10)
  else none

def readUnit : Reader Nat
  | a :: b :: c :: d :: rest => do
    let a ← hexValue? a
    let b ← hexValue? b
    let c ← hexValue? c
    let d ← hexValue? d
    return (((a * 16 + b) * 16 + c) * 16 + d, rest)
  | _ => none

/-- The character of one unit, or of two units that belong together. -/
def readEscapedCode : Reader Char := fun cs => do
  let (unit, rest) ← readUnit cs
  if 0xD800 ≤ unit ∧ unit < 0xDC00 then
    match rest with
    | '\\' :: 'u' :: rest =>
      let (second, rest) ← readUnit rest
      if 0xDC00 ≤ second ∧ second < 0xE000 then
        return (Char.ofNat (0x10000 + (unit - 0xD800) * 0x400 + (second - 0xDC00)), rest)
      else none
    | _ => none
  else if 0xDC00 ≤ unit ∧ unit < 0xE000 then none
  else return (Char.ofNat unit, rest)

def readEscape : Reader Char
  | '"' :: rest => some ('"', rest)
  | '\\' :: rest => some ('\\', rest)
  | '/' :: rest => some ('/', rest)
  | 'b' :: rest => some ('\x08', rest)
  | 'f' :: rest => some ('\x0c', rest)
  | 'n' :: rest => some ('\n', rest)
  | 'r' :: rest => some ('\r', rest)
  | 't' :: rest => some ('\t', rest)
  | 'u' :: rest => readEscapedCode rest
  | _ => none

/-- The characters of a string up to its closing quote. The first argument bounds the characters. -/
def readCharacters : Nat → Reader (List Char)
  | 0, _ => none
  | _ + 1, [] => none
  | bound + 1, c :: cs =>
    if c == '"' then some ([], cs)
    else if c == '\\' then do
      let (escaped, rest) ← readEscape cs
      let (more, rest) ← readCharacters bound rest
      return (escaped :: more, rest)
    else if c.toNat < 0x20 then none
    else do
      let (more, rest) ← readCharacters bound cs
      return (c :: more, rest)

def readString : Reader String := fun cs => do
  let (characters, rest) ← readCharacters cs.length cs
  return (String.ofList characters, rest)

/-- The items of an array behind its first one, with the closing bracket. -/
def readMoreItems (item : Reader Json) : Nat → Reader (List Json)
  | 0, _ => none
  | bound + 1, cs =>
    match skipSpace cs with
    | ']' :: rest => some ([], rest)
    | ',' :: rest => do
      let (first, rest) ← item rest
      let (more, rest) ← readMoreItems item bound rest
      return (first :: more, rest)
    | _ => none

def readItems (item : Reader Json) : Reader (List Json) := fun cs =>
  match skipSpace cs with
  | ']' :: rest => some ([], rest)
  | rest => do
    let (first, rest) ← item rest
    let (more, rest) ← readMoreItems item rest.length rest
    return (first :: more, rest)

/-- A member of an object, from its name on. -/
def readMember (item : Reader Json) : Reader (String × Json) := fun cs =>
  match skipSpace cs with
  | '"' :: rest => do
    let (name, rest) ← readString rest
    match skipSpace rest with
    | ':' :: rest =>
      let (value, rest) ← item rest
      return ((name, value), rest)
    | _ => none
  | _ => none

/-- The members of an object behind its first one, with the closing brace. -/
def readMoreMembers (item : Reader Json) : Nat → Reader (List (String × Json))
  | 0, _ => none
  | bound + 1, cs =>
    match skipSpace cs with
    | '\x7d' :: rest => some ([], rest)
    | ',' :: rest => do
      let (first, rest) ← readMember item rest
      let (more, rest) ← readMoreMembers item bound rest
      return (first :: more, rest)
    | _ => none

def readMembers (item : Reader Json) : Reader (List (String × Json)) := fun cs =>
  match skipSpace cs with
  | '\x7d' :: rest => some ([], rest)
  | rest => do
    let (first, rest) ← readMember item rest
    let (more, rest) ← readMoreMembers item rest.length rest
    return (first :: more, rest)

def readValue : Nat → Reader Json
  | depth, cs =>
    match skipSpace cs with
    | 'n' :: rest => do return (null, ← expect "ull".toList rest)
    | 't' :: rest => do return (bool true, ← expect "rue".toList rest)
    | 'f' :: rest => do return (bool false, ← expect "alse".toList rest)
    | '"' :: rest => do
      let (text, rest) ← readString rest
      return (string text, rest)
    | '[' :: rest =>
      match depth with
      | 0 => none
      | inner + 1 => do
        let (items, rest) ← readItems (readValue inner) rest
        return (array items, rest)
    | '\x7b' :: rest =>
      match depth with
      | 0 => none
      | inner + 1 => do
        let (members, rest) ← readMembers (readValue inner) rest
        return (object (.ofList members), rest)
    | rest => do
      let (value, rest) ← readNumber rest
      return (number value, rest)

def maxDepth : Nat := 127

/-- The value of a text that nests at most so deep and holds nothing else but white space. -/
def parseWithin (depth : Nat) (text : String) : Option Json := do
  let (value, rest) ← readValue depth text.toList
  if (skipSpace rest).isEmpty then some value else none

def parse (text : String) : Option Json := parseWithin maxDepth text

end AttributeShell.Json
