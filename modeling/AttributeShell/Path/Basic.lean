import AttributeShell.Automaton.Run
import AttributeShell.Path.Grammar
import AttributeShell.Path.Segments

/-!
Attribute paths as they are typed: the names that a separator has closed, the fragment typed since,
and where a completion goes. A path is read by running the grammar of paths with a `Reading` as the
observer's value.
-/

namespace AttributeShell

inductive Position where
  /-- In an attribute name, or before anything was typed. -/
  | name
  | afterDot
  | openBracket
  | listIndex
  | closeBracket
  deriving Repr, DecidableEq

/-- The state entered last tells the position. -/
def Position.ofMode : Option Mode → Position
  | some .dot => afterDot
  | some .openBracket => openBracket
  | some .listIndex => listIndex
  | some .closeBracket => closeBracket
  | some .name => name
  | some .initial => name
  | none => name

/-- Whether a name can be typed or continued here. -/
def Position.isName : Position → Bool
  | name => true
  | afterDot | openBracket | listIndex | closeBracket => false

/-- An attribute path that may still be typed on. -/
structure AttributePath where
  /-- The names that a separator has closed. -/
  segments : Segments
  /-- The characters of the name typed since the last separator. -/
  fragment : String
  position : Position
  /-- Where a completion is inserted. -/
  insertionOffset : Nat
  /-- Where the text goes on with something that is no path. -/
  haltedAt : Option Nat
  deriving Repr, DecidableEq

namespace AttributePath

def isHalted (path : AttributePath) : Bool := path.haltedAt.isSome

/-- The closed names and the fragment, if there is one. -/
def names (path : AttributePath) : List String :=
  path.segments.toList ++ if path.fragment.isEmpty then [] else [path.fragment]

end AttributePath

structure Reading where
  segments : Segments := .empty
  /-- The characters of the current name, or of the current index. -/
  buffer : String := ""
  /-- The state entered last. -/
  mode : Option Mode := none
  /-- The character on which it was entered. -/
  enteredOn : Option Char := none
  /-- The position at which it was entered. -/
  enteredAt : Nat := 0
  haltedAt : Option Nat := none
  deriving Repr, DecidableEq

namespace Reading

/-- A completion goes to where the last state was entered, or behind the separator there. -/
def insertionOffset (reading : Reading) : Nat :=
  match reading.enteredOn with
  | some c => if isSeparator c then reading.enteredAt + 1 else reading.enteredAt
  | none => reading.enteredAt

/-- The states that close the name before them. -/
def closesName : Mode → Bool
  | .dot | .openBracket => true
  | .initial | .name | .listIndex | .closeBracket => false

/-- Takes in an event. A dot or an opening bracket closes the name before it, which must not be
empty unless an index stands there; the digits of an index are dropped. -/
def observe : Automaton.Observer Mode Reading := fun event reading =>
  match event.kind with
  | .enter =>
    let entered := { reading with
      mode := some event.state, enteredOn := some event.character, enteredAt := event.offset }
    if reading.mode ≠ some .closeBracket ∧ closesName event.state then
      if reading.buffer.isEmpty then (entered, some (.missingName event.character event.offset))
      else ({ entered with segments := reading.segments.push reading.buffer, buffer := "" }, none)
    else (entered, none)
  | .leave => (if event.state = .listIndex then { reading with buffer := "" } else reading, none)
  | .character => ({ reading with buffer := reading.buffer.push event.character }, none)
  | .halt => ({ reading with haltedAt := some event.offset }, none)

def toPath (reading : Reading) : AttributePath where
  segments := reading.segments
  fragment := reading.buffer
  position := .ofMode reading.mode
  insertionOffset := reading.insertionOffset
  haltedAt := reading.haltedAt

end Reading

namespace AttributePath

/-- The longest cascade of the path grammar at one character is shorter than this: a name character
after an index leaves three states and enters one. -/
def patience : Nat := 16

/-- The path of a run, or the error that ended it. A run of the path grammar is never exhausted. -/
def ofRun : Reading × Automaton.Ending → Except ParseError AttributePath
  | (_, .failed error) => .error error
  | (reading, .returned) => .ok reading.toPath
  | (reading, .exhausted) => .ok reading.toPath

/-- Reads an attribute path, up to the first character that cannot stand in one. -/
def parse (text : String) : Except ParseError AttributePath :=
  ofRun (Automaton.run patience Mode.state .initial Reading.observe {} text)

end AttributePath

end AttributeShell
