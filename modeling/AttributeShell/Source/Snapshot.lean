import AttributeShell.Files
import AttributeShell.Json.Reader
import AttributeShell.Schema.Description
import AttributeShell.Source.Basic

/-!
Snapshots: a JSON object in a file, with a description of a resource under each address. The file is
read afresh for every fetch. An address is looked up under its own text first, and then under any
other text that is read as the same address.
-/

namespace AttributeShell

/-- Descriptions by the text of an address. -/
abbrev Snapshot := NameMap Json

namespace Snapshot

/-- Reads the text of a snapshot. One sentence stands for all that a JSON library may say of a text
that is not JSON; the library's wording is not reproduced. -/
def parse (text : String) : Except SchemaError Snapshot :=
  match Json.parse text with
  | some (.object members) => .ok members
  | some _ => .error (.invalidFormat "snapshot must be an object keyed by resource address")
  | none => .error (.invalidFormat "the snapshot is not a JSON text")

/-- Whether a key is read as an address. -/
def denotes (key : String) (address : Address) : Bool :=
  match Address.parse key with
  | .ok read => read == address
  | .error _ => false

/-- The key under which an address is described. -/
def keyOf? (snapshot : Snapshot) (address : Address) : Option String :=
  if address.text ∈ snapshot.names then some address.text
  else snapshot.names.find? (denotes · address)

def entry? (snapshot : Snapshot) (address : Address) : Option Json :=
  (snapshot.keyOf? address).bind snapshot.get?

def answer (snapshot : Snapshot) (address : Address) : Answer :=
  match snapshot.entry? address with
  | some response => Tree.ofResponse response
  | none => .ok none

/-- The addresses that are described, in the order of their keys; none of the keys may be anything
else. -/
def addresses (snapshot : Snapshot) : Except SchemaError (List Address) :=
  snapshot.names.mapM fun key =>
    match Address.parse key with
    | .ok address => .ok address
    | .error error => .error (.invalidFormat error.message)

def load (files : Files) (path : String) : Except SchemaError Snapshot :=
  match files.read path with
  | .ok text => parse text
  | .error error => .error (.unreadable (path ++ ": " ++ error.message))

end Snapshot

def Source.snapshot (path : String) : Source Files where
  fetch _ address files :=
    match Snapshot.load files path with
    | .ok snapshot => (snapshot.answer address, files)
    | .error error => (.error error, files)
  invalidate files := files

end AttributeShell
