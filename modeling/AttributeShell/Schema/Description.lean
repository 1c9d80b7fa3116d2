import AttributeShell.Error
import AttributeShell.Json.Writer
import AttributeShell.Schema.Attribute

/-!
Reading attributes from JSON. An attribute is described by an object with the members `type`,
`value-type`, `access-type` and `description`. Reading can fail where attributes are expected and no
object is found; anything else that is missing or malformed is read as undefined.
-/

namespace AttributeShell

namespace Json

/-- A type is named by a string, or by a string as the only member of an object. -/
def typeName? : Json → Option String
  | string name => some name
  | object members =>
    if members.names = ["TYPE_MODEL_VALUE"] then
      (members.get? "TYPE_MODEL_VALUE").bind string?
    else none
  | null | bool _ | number _ | array _ => none

end Json

/-- The type of a name, a container with the given value type. -/
def AttributeType.ofName (name : Option String) (value : ValueType) : AttributeType :=
  match name with
  | none => .primitive .undefined
  | some name =>
    match Container.ofName? name with
    | some kind => .container kind value
    | none => .primitive (.ofName name)

/-- The value type that a value describes: none, a type by name, or attributes. These are read only
if it comes to that. -/
def ValueType.read (json : Json) (attributes : Unit → Except SchemaError Tree) :
    Except SchemaError ValueType :=
  match json.typeName?, json with
  | some name, _ => .ok (.primitive (.ofName name))
  | none, .null => .ok .unspecified
  | none, .object _ => (attributes ()).map .complex
  | none, .bool _ | none, .number _ | none, .string _ | none, .array _ =>
    .ok (.primitive .undefined)

mutual

/-- Reads the description of one attribute. -/
def Attribute.read : Json → Except SchemaError Attribute
  | .object ⟨names, ordered, value⟩ => do
    let fields : NameMap Json := ⟨names, ordered, value⟩
    let valueType ←
      if h : "value-type" ∈ names then
        ValueType.read (value ⟨"value-type", h⟩) fun _ => Tree.ofJson (value ⟨"value-type", h⟩)
      else .ok .unspecified
    return .mk (.ofName ((fields.get? "type").bind Json.typeName?) valueType)
      (.ofName (((fields.get? "access-type").bind Json.string?).getD ""))
      ((fields.get? "description").bind Json.string?)
  | .null | .bool _ | .number _ | .string _ | .array _ => .ok .undefined
termination_by structural json => json

/-- Reads the descriptions of attributes, each under its name. -/
def Tree.ofJson : Json → Except SchemaError Tree
  | .object ⟨names, _, value⟩ => do
    let attributes ← names.attach.mapM fun name => do
      let attr ← Attribute.read (value name)
      return (name.val, attr)
    return .ofList attributes
  | other =>
    .error (.invalidFormat ("attribute descriptions must be an object, found " ++ other.kindName))
termination_by structural json => json

end

/-- The attribute that a value describes, whether it is an object or not. -/
def Attribute.ofJson (json : Json) : Attribute := (Attribute.read json).toOption.getD .undefined

namespace Tree

/-- What the elements of one address decide: one of them names all resources, or one of them is no
name with a value, or neither. -/
def wildcardIn : List Json → Except SchemaError Bool
  | [] => .ok false
  | element :: rest =>
    match element with
    | .object members =>
      match members.toList with
      | [(_, value)] => if value.string? = some "*" then .ok true else wildcardIn rest
      | _ => .error (.invalidAddressNode element.compact)
    | _ => .error (.invalidAddressNode element.compact)

/-- The item whose address names all resources. None is looked for behind an item whose address is
no array. -/
def wildcardItem : List Json → Except SchemaError (Option Json)
  | [] => .error .missingWildcard
  | item :: rest =>
    match item.member? "address" with
    | some (.array address) =>
      match wildcardIn address with
      | .error error => .error error
      | .ok true => .ok (some item)
      | .ok false => wildcardItem rest
    | _ => .ok none

/-- The attributes of a described resource, if it has any. -/
def ofResult (result : Json) : Except SchemaError (Option Tree) :=
  match result.defined? "attributes" with
  | some attributes => (ofJson attributes).map some
  | none => .ok none

/-- The attributes of the item that stands for all resources, if one has been found. -/
def ofItem : Option Json → Except SchemaError (Option Tree)
  | none => .ok none
  | some item =>
    match item.defined? "result" with
    | none => .ok none
    | some result => ofResult result

/-- The attributes in a response, which describes one resource, or many of which the one that stands
for all counts. -/
def ofResponse (response : Json) : Except SchemaError (Option Tree) :=
  match response.defined? "result" with
  | none => .ok none
  | some (.array items) => (wildcardItem items).bind ofItem
  | some result => ofResult result

end Tree

end AttributeShell
