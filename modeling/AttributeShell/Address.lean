import AttributeShell.Error
import AttributeShell.Text.Blank
import AttributeShell.Text.Split

/-!
Addresses of resources: the way from the root through nodes, each a type with a name, written
`/type=name/type=name`. The root alone is written `/`.
-/

namespace AttributeShell

structure AddressNode where
  type : String
  name : String
  deriving Repr, DecidableEq

namespace AddressNode

/-- Whether the node stands for all resources of its type. -/
def isWildcard (node : AddressNode) : Bool := node.name == "*"

/-- A type and a name with an equals sign between them, neither of them empty. The name may hold
further equals signs. -/
def ofPart? (part : List Char) : Option AddressNode :=
  match Text.splitOnce '=' part with
  | some (type, name) =>
    if type.isEmpty || name.isEmpty then none
    else some ⟨String.ofList type, String.ofList name⟩
  | none => none

end AddressNode

/-- The nodes from the root on. -/
structure Address where
  nodes : List AddressNode
  deriving Repr, DecidableEq

namespace Address

def root : Address := ⟨[]⟩

def isRoot (address : Address) : Bool := address.nodes.isEmpty

def child (address : Address) (type name : String) : Address :=
  ⟨address.nodes ++ [⟨type, name⟩]⟩

/-- One node up; the root is its own parent. -/
def parent (address : Address) : Address := ⟨address.nodes.dropLast⟩

def writeNode (node : AddressNode) : List Char :=
  '/' :: node.type.toList ++ '=' :: node.name.toList

def text (address : Address) : String :=
  if address.isRoot then "/" else String.ofList (address.nodes.flatMap writeNode)

/-- The nodes of an address from behind its first slash. Empty parts do not count. -/
def nodesOf? (cs : List Char) : Option (List AddressNode) :=
  (Text.parts '/' cs).mapM AddressNode.ofPart?

/-- Reads an address, with white space around it. -/
def parse (text : String) : Except ParseError Address :=
  let trimmed := Text.trim text
  match trimmed.toList with
  | '/' :: rest =>
    match nodesOf? rest with
    | some nodes => .ok ⟨nodes⟩
    | none => .error (.invalidAddress trimmed)
  | _ => .error (.invalidAddress trimmed)

/-- Goes on by one part: two dots lead up, anything else must be a node. -/
def follow? (address : Address) (part : List Char) : Option Address :=
  if part = ['.', '.'] then some address.parent
  else (AddressNode.ofPart? part).map fun node => ⟨address.nodes ++ [node]⟩

/-- Resolves a target against an address: one that starts with a slash is an address of its own, any
other leads on from here part by part. -/
def resolve (address : Address) (target : String) : Except ParseError Address :=
  let trimmed := Text.trim target
  match trimmed.toList with
  | '/' :: _ => parse trimmed
  | cs =>
    match (Text.parts '/' cs).foldlM follow? address with
    | some resolved => .ok resolved
    | none => .error (.invalidAddress trimmed)

@[simp] theorem parent_root : root.parent = root := rfl

@[simp] theorem parent_child (address : Address) (type name : String) :
    (address.child type name).parent = address := by
  simp [parent, child]

end Address

end AttributeShell
