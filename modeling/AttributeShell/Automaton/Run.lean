import AttributeShell.Automaton.Basic
import AttributeShell.Automaton.Event
import AttributeShell.Text.Bytes

/-!
Running a grammar over a text. The run keeps a stack of nested states, goes through the characters
once from left to right, and reports what happens to an observer.

One character may start a cascade of handlers: a state that is entered or left hands the character
on. A cascade need not end, as a state may enter itself again, so `handle` is given a number of
steps to make, the *patience* of the run. `Progress.exhausted` says that it did not suffice.
-/

namespace AttributeShell.Automaton

variable {S σ : Type}

/-- Where a run stands. -/
structure Cursor (S : Type) where
  /-- The outermost state, which is never left. -/
  root : S
  /-- The states nested in it, the innermost first. -/
  nested : List S
  offset : Nat
  character : Char
  /-- Whether the next character is reported whatever it is. -/
  escaped : Bool
  deriving Repr, DecidableEq

def Cursor.state (cursor : Cursor S) : S := cursor.nested.headD cursor.root

def Cursor.stack (cursor : Cursor S) : List S := cursor.nested ++ [cursor.root]

/-- At the front of a text, before its first character. -/
def Cursor.start (root : S) : Cursor S :=
  { root, nested := [], offset := 0, character := '\x00', escaped := false }

def Cursor.event (cursor : Cursor S) (kind : EventKind) : Event S :=
  { kind, state := cursor.state, offset := cursor.offset, character := cursor.character,
    atEnd := false }

/-- What became of a character, and of the observer's value. -/
inductive Progress (S σ : Type) where
  | going (cursor : Cursor S) (seen : σ)
  | halted (cursor : Cursor S) (seen : σ)
  | failed (seen : σ) (error : ParseError)
  | exhausted (seen : σ)

/-- Goes on from an event unless the observer fails on it. -/
def report (observer : Observer S σ) (event : Event S) (seen : σ)
    (goOn : σ → Progress S σ) : Progress S σ :=
  match observer event seen with
  | (seen, some error) => .failed seen error
  | (seen, none) => goOn seen

/-- Follows a handler, and all that it leads to at this character, for at most so many steps. -/
def handle (grammar : Grammar S) (observer : Observer S σ) :
    Nat → Handler S → Cursor S → σ → Progress S σ
  | 0, _, _, seen => .exhausted seen
  | patience + 1, handler, cursor, seen =>
    match handler with
    | .ignore => .going cursor seen
    | .enter state =>
      let entered := { cursor with nested := state :: cursor.nested }
      report observer (entered.event .enter) seen fun seen =>
        handle grammar observer patience (grammar state).onEnter entered seen
    | .word escape =>
      if escape && cursor.character == '\\' then .going { cursor with escaped := true } seen
      else report observer (cursor.event .character) seen fun seen => .going cursor seen
    | .leave =>
      match cursor.nested with
      | [] => .going cursor seen
      | _ :: outer =>
        let left := { cursor with nested := outer }
        report observer (cursor.event .leave) seen fun seen =>
          handle grammar observer patience (grammar left.state).onReturn left seen
    | .redispatch =>
      match (grammar cursor.state).handler cursor.character with
      | .redispatch => .going cursor seen
      | next => handle grammar observer patience next cursor seen
    | .classify accepts matched otherwise =>
      handle grammar observer patience (if accepts cursor.character then matched else otherwise)
        cursor seen
    | .reject expected => .failed seen (.unexpected cursor.character cursor.offset expected)
    | .halt => .halted cursor seen

/-- What is done first with a character: an escaped one is reported, any other is looked up in the
innermost state. -/
def Cursor.firstHandler (grammar : Grammar S) (cursor : Cursor S) (c : Char) : Handler S :=
  if cursor.escaped then .word false else (grammar cursor.state).handler c

def Cursor.moveTo (cursor : Cursor S) (offset : Nat) (c : Char) : Cursor S :=
  { cursor with offset, character := c, escaped := false }

def step (patience : Nat) (grammar : Grammar S) (observer : Observer S σ) (offset : Nat) (c : Char)
    (cursor : Cursor S) (seen : σ) : Progress S σ :=
  handle grammar observer patience (cursor.firstHandler grammar c) (cursor.moveTo offset c) seen

/-- The characters of a text from a position on, until one of them ends the run. -/
def consume (patience : Nat) (grammar : Grammar S) (observer : Observer S σ) :
    List Char → Nat → Cursor S → σ → Progress S σ
  | [], _, cursor, seen => .going cursor seen
  | c :: rest, offset, cursor, seen =>
    match step patience grammar observer offset c cursor seen with
    | .going cursor seen =>
      consume patience grammar observer rest (offset + c.utf8Size) cursor seen
    | ended => ended

inductive Ending where
  | returned
  | failed (error : ParseError)
  | exhausted
  deriving Repr, DecidableEq

/-- Leaves the nested states at the end of the text, the innermost first. No return handler runs,
and a state that has to be closed is an error. -/
def unwind (grammar : Grammar S) (observer : Observer S σ) (length : Nat) (last : Char) :
    List S → σ → σ × Ending
  | [], seen => (seen, .returned)
  | state :: outer, seen =>
    if (grammar state).mustClose then (seen, .failed (.unterminated (grammar state).name length))
    else
      match observer ⟨.leave, state, length, last, true⟩ seen with
      | (seen, some error) => (seen, .failed error)
      | (seen, none) => unwind grammar observer length last outer seen

/-- What remains to be done when the characters are used up or one of them ended the run. -/
def Progress.finish (grammar : Grammar S) (observer : Observer S σ) (length : Nat) :
    Progress S σ → σ × Ending
  | .going cursor seen => unwind grammar observer length cursor.character cursor.nested seen
  | .halted cursor seen =>
    match observer (cursor.event .halt) seen with
    | (seen, some error) => (seen, .failed error)
    | (seen, none) => (seen, .returned)
  | .failed seen error => (seen, .failed error)
  | .exhausted seen => (seen, .exhausted)

def run (patience : Nat) (grammar : Grammar S) (root : S) (observer : Observer S σ) (seen : σ)
    (text : String) : σ × Ending :=
  (consume patience grammar observer text.toList 0 (Cursor.start root) seen).finish grammar observer
    (Text.size text)

end AttributeShell.Automaton
