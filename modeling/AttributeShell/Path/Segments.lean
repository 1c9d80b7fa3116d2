/-!
The names of a path that a separator has already closed. Most paths have none or one of them, and
the type keeps these cases apart; `toList` is the plain list that it stands for. The type leaves
room for a `many` of one name or of none, which `push` never makes.
-/

namespace AttributeShell

inductive Segments where
  | empty
  | one (name : String)
  | many (names : List String)
  deriving Repr, DecidableEq

namespace Segments

def push : Segments → String → Segments
  | empty, name => one name
  | one first, name => many [first, name]
  | many names, name => many (names ++ [name])

def toList : Segments → List String
  | empty => []
  | one name => [name]
  | many names => names

def length (segments : Segments) : Nat := segments.toList.length

def isEmpty : Segments → Bool
  | empty => true
  | one _ => false
  | many _ => false

@[simp] theorem toList_empty : empty.toList = [] := rfl

@[simp] theorem toList_push (segments : Segments) (name : String) :
    (segments.push name).toList = segments.toList ++ [name] := by
  cases segments <;> rfl

@[simp] theorem length_push (segments : Segments) (name : String) :
    (segments.push name).length = segments.length + 1 := by
  simp [length]

end Segments

end AttributeShell
