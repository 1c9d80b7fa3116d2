import AttributeShell.Decimal.Shortest
import AttributeShell.NameMap

/-!
JSON values. The members of an object are a map, so their order and repetitions in a text leave no
trace.
-/

namespace AttributeShell

/-- A number: an integer of 64 bits, with or without sign, or else a floating-point number. -/
inductive JsonNumber where
  | natural (n : Nat)
  | negative (n : Nat)
  | float (x : Decimal.Binary64)
  deriving Repr, DecidableEq

inductive Json where
  | null
  | bool (value : Bool)
  | number (value : JsonNumber)
  | string (value : String)
  | array (items : List Json)
  | object (members : NameMap Json)

namespace Json

instance : Inhabited Json := ⟨null⟩

/-- The member of an object; what is no object has none. -/
def member? : Json → String → Option Json
  | object members, name => members.get? name
  | null, _ | bool _, _ | number _, _ | string _, _ | array _, _ => none

/-- A member that is there and not null. -/
def defined? (json : Json) (name : String) : Option Json :=
  match json.member? name with
  | some null => none
  | found => found

def string? : Json → Option String
  | string value => some value
  | null | bool _ | number _ | array _ | object _ => none

/-- What kind of value it is, with its article. -/
def kindName : Json → String
  | null => "null"
  | bool _ => "a boolean"
  | number _ => "a number"
  | string _ => "a string"
  | array _ => "an array"
  | object _ => "an object"

theorem string?_eq_some {json : Json} {text : String} :
    json.string? = some text ↔ json = .string text := by
  cases json <;> simp [string?]

theorem defined?_eq_none {json : Json} {name : String} :
    json.defined? name = none ↔ json.member? name = none ∨ json.member? name = some .null := by
  simp only [defined?]
  split <;> simp_all

theorem defined?_eq_some {json value : Json} {name : String} :
    json.defined? name = some value ↔ json.member? name = some value ∧ value ≠ .null := by
  simp only [defined?]
  split
  · rename_i h
    rw [h]
    refine iff_of_false nofun ?_
    rintro ⟨⟨⟩, hne⟩
    exact hne rfl
  · rename_i h
    refine ⟨fun hvalue => ⟨hvalue, ?_⟩, And.left⟩
    rintro rfl
    exact h hvalue

end Json

end AttributeShell
