import AttributeShell.Path.Basic
import AttributeShell.Schema.Attribute
import AttributeShell.Text.Blank
import AttributeShell.Text.Split

/-!
What may follow an attribute path that is being typed. The closed names of the path lead down the
tree, through attributes that are visible and have attributes below them; its end decides what is
offered there.
-/

namespace AttributeShell

/-- Candidates, and the position from which they replace the text. -/
structure Completion where
  candidates : List String
  offset : Nat
  deriving Repr, DecidableEq

def Completion.isEmpty (completion : Completion) : Bool := completion.candidates.isEmpty

/-- Whether an attribute is shown: only what is read-only can be hidden. -/
def Attribute.isVisible (writableOnly : Bool) (attr : Attribute) : Bool :=
  !writableOnly || attr.isWritable

namespace Tree

def visible? (writableOnly : Bool) (tree : Tree) (name : String) : Option Attribute :=
  (tree.get? name).filter (Attribute.isVisible writableOnly)

/-- The names of the visible attributes, in ascending order. -/
def visibleNames (writableOnly : Bool) (tree : Tree) : List String :=
  tree.names.filter fun name => (tree.visible? writableOnly name).isSome

/-- One step down, through a visible attribute. -/
def below? (writableOnly : Bool) (tree : Tree) (name : String) : Option Tree :=
  (tree.visible? writableOnly name).bind Attribute.nested?

def descend (writableOnly : Bool) (tree : Tree) (names : List String) : Option Tree :=
  names.foldlM (below? writableOnly) tree

/-- Names that continue a fragment. One that has been typed in full is not offered; its separator is
instead, and takes the place behind it if nothing else is offered. -/
def completeName (writableOnly : Bool) (tree : Tree) (fragment : String) (offset : Nat) :
    Completion :=
  let typed (name : String) : Bool := !fragment.isEmpty && name == fragment
  let names := (tree.visibleNames writableOnly).filter fun name =>
    Text.startsWith name fragment && !typed name
  let exact := if fragment.isEmpty then none else tree.visible? writableOnly fragment
  match exact.bind Attribute.separator? with
  | none => ⟨names, offset⟩
  | some separator =>
    ⟨(names ++ [separator]).mergeSort (· ≤ ·),
      if names.isEmpty then offset + Text.size fragment else offset⟩

/-- What is offered at the end of a path, in a tree to which its closed names have led. -/
def offered (writableOnly : Bool) (tree : Tree) (path : AttributePath) : Completion :=
  match path.position with
  | .afterDot => ⟨tree.visibleNames writableOnly, path.insertionOffset⟩
  | .openBracket | .listIndex => ⟨[], path.insertionOffset⟩
  | .closeBracket => ⟨[".", "="], path.insertionOffset⟩
  | .name => tree.completeName writableOnly path.fragment path.insertionOffset

/-- The completion of a path, unless its closed names lead nowhere. -/
def resolve (writableOnly : Bool) (tree : Tree) (path : AttributePath) : Option Completion :=
  (tree.descend writableOnly path.segments.toList).map (·.offered writableOnly path)

end Tree

namespace AttributePath

/-- The path before a position of a line, if the line can be completed there. -/
def before? (line : String) (position : Nat) : Option AttributePath := do
  let typed ← Text.before? line position
  match parse typed with
  | .ok path => if path.isHalted then none else some path
  | .error _ => none

/-- Whether a path can end here: not behind a separator, nor inside brackets. -/
def isFinished (path : AttributePath) : Bool :=
  !path.isHalted &&
    match path.position with
    | .name | .closeBracket => true
    | .afterDot | .openBracket | .listIndex => false

def finishedNames? (expression : String) : Option (List String) :=
  match parse (Text.trim expression) with
  | .ok path => if path.isFinished then some path.names else none
  | .error _ => none

end AttributePath

namespace Tree

/-- Completes a line at a position; what is behind it is ignored. -/
def complete (writableOnly : Bool) (tree : Tree) (line : String) (position : Nat) :
    Option Completion :=
  (AttributePath.before? line position).bind (tree.resolve writableOnly)

/-- The attribute that a finished path names, visible or not. -/
def describe (tree : Tree) (expression : String) : Option Attribute :=
  (AttributePath.finishedNames? expression).bind tree.lookup

end Tree

/-- A candidate, the part of the line that it replaces, and the description of its attribute. -/
structure Suggestion where
  value : String
  start : Nat
  stop : Nat
  description : Option String
  deriving Repr, DecidableEq

namespace Suggestion

/-- The candidates that name no attribute. -/
def isSeparator (candidate : String) : Bool :=
  candidate == "." || candidate == "[" || candidate == "="

/-- The line that a candidate completes, if it names an attribute. -/
def expression? (line : String) (start : Nat) (candidate : String) : Option String :=
  if isSeparator candidate then none else (Text.before? line start).map (· ++ candidate)

end Suggestion

def Tree.suggest (writableOnly : Bool) (tree : Tree) (line : String) (position : Nat) :
    List Suggestion :=
  match tree.complete writableOnly line position with
  | none => []
  | some completion =>
    completion.candidates.map fun candidate =>
      { value := candidate
        start := completion.offset
        stop := position
        description := do
          let expression ← Suggestion.expression? line completion.offset candidate
          let attr ← tree.describe expression
          attr.description }

end AttributeShell
