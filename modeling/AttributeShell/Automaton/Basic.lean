import AttributeShell.Text.Quoted

/-!
A grammar is a family of named states. A state says what to do with a character, with the character
on which it is entered, and with the character on which a state nested in it is left. What can be
done is a `Handler`: a finite tree whose inner nodes ask a question about the character and whose
leaves act.
-/

namespace AttributeShell.Automaton

/-- What a state does with a character. -/
inductive Handler (S : Type) where
  /-- Do nothing. -/
  | ignore
  /-- Nest a state; its own enter handler then sees the same character. -/
  | enter (state : S)
  /-- Report the character as part of a word. With `escape` a backslash is not reported, and the
  character after it is reported whatever the active state would do with it. -/
  | word (escape : Bool)
  /-- Leave the active state; the return handler of the state around it then sees the same
  character. -/
  | leave
  /-- Look the character up again in the active state. -/
  | redispatch
  /-- Choose by a property of the character. -/
  | classify (accepts : Char → Bool) (matched otherwise : Handler S)
  /-- Refuse the character. -/
  | reject (expected : String)
  /-- Stop; the rest of the text does not belong to the expression. -/
  | halt

instance {S : Type} : Inhabited (Handler S) := ⟨.ignore⟩

/-- A named state of a grammar. -/
structure State (S : Type) where
  name : String
  /-- For the characters that trigger nothing. -/
  otherwise : Handler S
  /-- Handlers of single characters; the first entry of a character counts. -/
  triggers : List (Char × Handler S) := []
  onEnter : Handler S := .ignore
  onReturn : Handler S := .ignore
  /-- Whether the text may not end inside this state. -/
  mustClose : Bool := false

/-- The handler of a character: its first trigger, else the common one. -/
def State.handler {S : Type} (state : State S) (c : Char) : Handler S :=
  match state.triggers.find? (·.1 == c) with
  | some trigger => trigger.2
  | none => state.otherwise

/-- States are told apart by their names alone. -/
def State.sameName {S : Type} (a b : State S) : Bool := a.name == b.name

def State.display {S : Type} (state : State S) : String :=
  "ParsingState(" ++ Text.quoted state.name ++ ")"

/-- A grammar gives each index its state. -/
abbrev Grammar (S : Type) := S → State S

end AttributeShell.Automaton
