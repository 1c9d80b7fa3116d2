import AttributeShell.NameMap

/-!
What is known of an attribute: its type, its access mode and its description. An attribute may hold
attributes of its own, through the value type of its container; a tree gives the attributes of one
resource or of one such value type by name.
-/

namespace AttributeShell

inductive PrimitiveType where
  | bigDecimal
  | bigInteger
  | boolean
  | bytes
  | double
  | expression
  | int
  | long
  | string
  | typeReference
  | undefined
  deriving Repr, DecidableEq

namespace PrimitiveType

def name : PrimitiveType → String
  | bigDecimal => "BIG_DECIMAL"
  | bigInteger => "BIG_INTEGER"
  | boolean => "BOOLEAN"
  | bytes => "BYTES"
  | double => "DOUBLE"
  | expression => "EXPRESSION"
  | int => "INT"
  | long => "LONG"
  | string => "STRING"
  | typeReference => "TYPE"
  | undefined => "UNDEFINED"

def named : List PrimitiveType :=
  [bigDecimal, bigInteger, boolean, bytes, double, expression, int, long, string,
    typeReference]

/-- The type of a name, whatever the case of its English letters; any other name is undefined. -/
def ofName (name : String) : PrimitiveType :=
  (named.find? (·.name == name.map Char.toUpper)).getD undefined

end PrimitiveType

inductive Access where
  | readOnly
  | readWrite
  | metric
  deriving Repr, DecidableEq

namespace Access

def name : Access → String
  | readOnly => "read-only"
  | readWrite => "read-write"
  | metric => "metric"

/-- The mode of a name, which is written exactly; any other name means read and write. -/
def ofName (name : String) : Access :=
  if name = "read-only" then readOnly else if name = "metric" then metric else readWrite

/-- Only what is read-only cannot be written. -/
def isWritable : Access → Bool
  | readOnly => false
  | readWrite | metric => true

end Access

/-- Types that hold values of another type. -/
inductive Container where
  | object
  | list
  | property
  deriving Repr, DecidableEq

namespace Container

def name : Container → String
  | object => "OBJECT"
  | list => "LIST"
  | property => "PROPERTY"

/-- The container of a name, which is written exactly. -/
def ofName? (name : String) : Option Container :=
  [object, list, property].find? (·.name == name)

/-- The separator that continues a path through the container. -/
def separator? : Container → Option String
  | object => some "."
  | list => some "["
  | property => none

end Container

mutual

inductive Attribute where
  | mk (type : AttributeType) (access : Access) (description : Option String)

inductive AttributeType where
  | primitive (kind : PrimitiveType)
  | container (container : Container) (value : ValueType)

inductive ValueType where
  | unspecified
  | primitive (kind : PrimitiveType)
  | complex (tree : NameMap Attribute)

end

/-- Attributes by name. -/
abbrev Tree := NameMap Attribute

namespace ValueType

def tree? : ValueType → Option Tree
  | complex tree => some tree
  | unspecified | primitive _ => none

end ValueType

namespace AttributeType

/-- The attributes that the values of this type have. -/
def nested? : AttributeType → Option Tree
  | primitive _ => none
  | container _ value => value.tree?

def separator? : AttributeType → Option String
  | primitive _ => none
  | container outer _ => outer.separator?

/-- The name of a type, with what it holds in angle brackets. -/
def display : AttributeType → String
  | primitive kind => kind.name
  | container outer .unspecified => outer.name
  | container outer (.primitive kind) => outer.name ++ "<" ++ kind.name ++ ">"
  | container outer (.complex _) => outer.name ++ "<complex>"

end AttributeType

namespace Attribute

instance : Inhabited Attribute := ⟨.mk (.primitive .undefined) .readWrite none⟩

def type : Attribute → AttributeType
  | mk type _ _ => type

def access : Attribute → Access
  | mk _ access _ => access

def description : Attribute → Option String
  | mk _ _ description => description

def undefined : Attribute := mk (.primitive .undefined) .readWrite none

def isWritable (attr : Attribute) : Bool := attr.access.isWritable

def nested? (attr : Attribute) : Option Tree := attr.type.nested?

def separator? (attr : Attribute) : Option String := attr.type.separator?

end Attribute

namespace Tree

/-- Follows names through the attributes below one another. -/
def lookup (tree : Tree) : List String → Option Attribute
  | [] => none
  | [last] => tree.get? last
  | name :: next :: rest => do
    let attr ← tree.get? name
    let below ← attr.nested?
    lookup below (next :: rest)

end Tree

mutual

/-- Whether two attributes agree in everything, down to the last attribute below them. -/
def Attribute.same : Attribute → Attribute → Bool
  | .mk type access description, .mk type' access' description' =>
    type.same type' && access == access' && description == description'
termination_by structural attr => attr

def AttributeType.same : AttributeType → AttributeType → Bool
  | .primitive kind, .primitive kind' => kind == kind'
  | .container kind value, .container kind' value' => kind == kind' && value.same value'
  | .primitive _, .container .. => false
  | .container .., .primitive _ => false
termination_by structural type => type

def ValueType.same : ValueType → ValueType → Bool
  | .unspecified, .unspecified => true
  | .primitive kind, .primitive kind' => kind == kind'
  | .complex tree, .complex tree' => sameTree tree tree'
  | .unspecified, .primitive _ | .unspecified, .complex _ => false
  | .primitive _, .unspecified | .primitive _, .complex _ => false
  | .complex _, .unspecified | .complex _, .primitive _ => false
termination_by structural value => value

def sameTree (tree other : NameMap Attribute) : Bool :=
  match tree with
  | ⟨names, _, value⟩ =>
    names == other.names && names.attach.all fun name =>
      match other.get? name.val with
      | some attr => (value name).same attr
      | none => false
termination_by structural tree

end

end AttributeShell
