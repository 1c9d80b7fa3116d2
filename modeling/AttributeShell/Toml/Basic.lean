/-!
TOML documents as values. A table remembers how it came about, since that decides what may still be
added to it.
-/

namespace AttributeShell

inductive TableOrigin where
  /-- Under a header of its own. -/
  | header
  /-- Because a header names a table below it. -/
  | implied
  /-- Because a dotted key names a value below it. -/
  | dotted
  /-- Between braces. Nothing can be added to it. -/
  | inlined
  deriving Repr, DecidableEq

inductive Toml where
  | string (text : String)
  /-- An integer, and its value if it is made of digits and in range. -/
  | integer (value : Option Int)
  /-- A floating-point number, and whether its magnitude is in range. -/
  | float (inRange : Bool)
  | boolean (value : Bool)
  /-- A date, a time, or both. -/
  | moment
  /-- Values in brackets, or tables each under a header in double brackets. -/
  | array (items : List Toml) (ofTables : Bool)
  | table (origin : TableOrigin) (entries : List (String × Toml))

structure TomlTable where
  origin : TableOrigin
  entries : List (String × Toml)

namespace TomlTable

def get? (table : TomlTable) (key : String) : Option Toml :=
  (table.entries.find? (·.1 == key)).map (·.2)

def toToml (table : TomlTable) : Toml := .table table.origin table.entries

/-- Gives a key a value, in place of the one that it may have. -/
def set (table : TomlTable) (key : String) (value : Toml) : TomlTable :=
  if (table.get? key).isSome then
    { table with
      entries := table.entries.map fun entry => if entry.1 == key then (key, value) else entry }
  else { table with entries := table.entries ++ [(key, value)] }

/-- Gives a new key its value. A key cannot be defined twice. -/
def define (key : String) (value : Toml) (table : TomlTable) : Option TomlTable :=
  if (table.get? key).isSome then none else some (table.set key value)

/-- Whether keys can lead on through a table. A dotted key only leads through tables that have no
header. -/
def isOpen (dotted : Bool) : TableOrigin → Bool
  | .header => !dotted
  | .implied | .dotted => true
  | .inlined => false

/-- Changes the table to which keys lead, and makes those that are missing on the way. Of an array
of tables the last one is meant. -/
def alter (dotted : Bool) (change : TomlTable → Option TomlTable) :
    List String → TomlTable → Option TomlTable
  | [], table => change table
  | key :: path, table =>
    match table.get? key with
    | none => do
      let below ← alter dotted change path ⟨if dotted then .dotted else .implied, []⟩
      return table.set key below.toToml
    | some (.table origin entries) =>
      if isOpen dotted origin then do
        let below ← alter dotted change path ⟨origin, entries⟩
        return table.set key below.toToml
      else none
    | some (.array items true) =>
      match items.reverse with
      | .table origin entries :: earlier => do
        let below ← alter dotted change path ⟨origin, entries⟩
        return table.set key (.array (below.toToml :: earlier).reverse true)
      | _ => none
    | some _ => none

/-- Gives the value of a key with dots. All but its last part lead through tables made by such keys
alone. -/
def defineAt (path : List String) (key : String) (value : Toml) (table : TomlTable) :
    Option TomlTable :=
  alter true
    (fun inner =>
      if path.isEmpty || inner.origin == .dotted then inner.define key value else none)
    path table

/-- Opens a table under its header. Only a table implied by other headers may be there already. -/
def openTable (key : String) (table : TomlTable) : Option TomlTable :=
  match table.get? key with
  | none => some (table.set key (.table .header []))
  | some (.table .implied entries) => some (table.set key (.table .header entries))
  | some _ => none

def openItem (key : String) (table : TomlTable) : Option TomlTable :=
  match table.get? key with
  | none => some (table.set key (.array [.table .header []] true))
  | some (.array items true) => some (table.set key (.array (items ++ [.table .header []]) true))
  | some _ => none

end TomlTable

end AttributeShell
