import AttributeShell.Error

/-!
What a run of an automaton tells its observer, one event at a time. An observer keeps a value of its
own and may answer an event with an error, which ends the run.
-/

namespace AttributeShell.Automaton

inductive EventKind where
  | enter
  | leave
  | character
  | halt
  deriving Repr, DecidableEq

/-- One event, with the active state and the character and position at which it happened. -/
structure Event (S : Type) where
  kind : EventKind
  state : S
  offset : Nat
  character : Char
  /-- Whether the whole text has been read. -/
  atEnd : Bool
  deriving Repr, DecidableEq

/-- Takes in an event and may fail on it. What it has taken in by then is kept. -/
abbrev Observer (S σ : Type) := Event S → σ → σ × Option ParseError

/-- Never ends a run. -/
def Observer.NeverFails {S σ : Type} (observer : Observer S σ) : Prop :=
  ∀ event seen, (observer event seen).2 = none

/-- Keeps every event, in order, and fails right after the event numbered `n` if `fault n` says so.
With `hearsHalt` off it takes no notice of a halt. -/
def recorder {S : Type} (fault : Nat → Option ParseError) (hearsHalt : Bool) :
    Observer S (List (Event S)) :=
  fun event seen =>
    if event.kind = .halt ∧ ¬ hearsHalt then (seen, none)
    else (seen ++ [event], fault seen.length)

/-- Watches another observer: after each event that it has taken in, whether or not it failed,
`note` makes an entry of the event and the other's value. -/
def Observer.watched {S σ ω : Type} (observer : Observer S σ) (note : Event S → σ → ω) :
    Observer S (σ × List ω) :=
  fun event seen =>
    let (after, fault) := observer event seen.1
    ((after, seen.2 ++ [note event after]), fault)

end AttributeShell.Automaton
