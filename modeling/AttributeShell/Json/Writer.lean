import AttributeShell.Json.Basic

/-!
The compact text of a JSON value: no white space, the members of an object in ascending order, and
no character escaped that need not be.
-/

namespace AttributeShell.Json

/-- Floating-point numbers from 0.00001 up to sixteen digits before the point have no exponent. -/
def numberLayout : Decimal.Layout := { minPlain := -5, maxPlain := 15 }

def writeNumber : JsonNumber → List Char
  | .natural n => (toString n).toList
  | .negative n => '-' :: (toString n).toList
  | .float x => x.layOut numberLayout

def hexDigit (n : Nat) : Char := Nat.digitChar (n % 16)

def writeCharacter (c : Char) : List Char :=
  if c == '"' then ['\\', '"']
  else if c == '\\' then ['\\', '\\']
  else if c == '\x08' then ['\\', 'b']
  else if c == '\x0c' then ['\\', 'f']
  else if c == '\n' then ['\\', 'n']
  else if c == '\r' then ['\\', 'r']
  else if c == '\t' then ['\\', 't']
  else if c.toNat < 0x20 then ['\\', 'u', '0', '0', hexDigit (c.toNat / 16), hexDigit c.toNat]
  else [c]

def writeString (text : String) : List Char :=
  '"' :: text.toList.flatMap writeCharacter ++ ['"']

def separated : List (List Char) → List Char
  | [] => []
  | [last] => last
  | first :: second :: rest => first ++ ',' :: separated (second :: rest)

mutual

def write : Json → List Char
  | null => "null".toList
  | bool true => "true".toList
  | bool false => "false".toList
  | number value => writeNumber value
  | string value => writeString value
  | array items => '[' :: separated (writeItems items) ++ [']']
  | object members => '\x7b' :: separated (writeMembers members) ++ ['\x7d']
termination_by structural json => json

def writeItems : List Json → List (List Char)
  | [] => []
  | first :: rest => write first :: writeItems rest
termination_by structural items => items

def writeMembers (members : NameMap Json) : List (List Char) :=
  match members with
  | ⟨names, _, value⟩ =>
    names.attach.map fun name => writeString name.val ++ ':' :: write (value name)
termination_by structural members

end

def compact (json : Json) : String := String.ofList json.write

end AttributeShell.Json
