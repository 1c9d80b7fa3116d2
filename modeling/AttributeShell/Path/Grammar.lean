import AttributeShell.Automaton.Basic
import AttributeShell.Text.Alphanumeric

/-!
The grammar of attribute paths: names separated by dots, where a name may be followed by indices in
brackets. The states of a dot and of the two brackets are entered on their character and left on the
next one, which the initial state then reads afresh.
-/

namespace AttributeShell

def isNameCharacter (c : Char) : Bool := Text.isAlphanumeric c || c == '_' || c == '-'

/-- A character that separates or encloses: a dot or a bracket. -/
def isSeparator (c : Char) : Bool := c == '.' || c == '[' || c == ']'

/-- A character that may stand somewhere in a path. -/
def isPathCharacter (c : Char) : Bool := isNameCharacter c || isSeparator c

inductive Mode where
  | initial
  | name
  | dot
  | openBracket
  | listIndex
  | closeBracket
  deriving Repr, DecidableEq

namespace Mode

def all : List Mode := [initial, name, dot, openBracket, listIndex, closeBracket]

def indexExpected : String := "an index digit or ']'"

def nameExpected : String := "an attribute name, '.' or '['"

/-- What a path may go on with, in each state. -/
def state : Automaton.Grammar Mode
  | initial =>
    { name := "INITVAL"
      otherwise := .classify isNameCharacter (.enter name) .halt
      triggers := [('.', .enter dot), ('[', .enter openBracket), (']', .reject nameExpected)]
      onReturn := .classify isPathCharacter .redispatch .halt }
  | name =>
    { name := "ATTR_NAME"
      otherwise := .classify isNameCharacter (.word false) .leave
      onEnter := .redispatch }
  | dot => { name := "DOT", otherwise := .leave }
  | openBracket => { name := "OPN_BR", otherwise := .enter listIndex, onReturn := .leave }
  | listIndex =>
    { name := "LIST_IND"
      otherwise := .classify Char.isDigit (.word false) (.reject indexExpected)
      triggers := [(']', .enter closeBracket)]
      -- The bracket of an empty index is taken without entering the state of its own.
      onEnter := .classify Char.isDigit (.word false)
        (.classify (· == ']') .ignore (.reject indexExpected))
      onReturn := .leave }
  | closeBracket => { name := "CLS_BR", otherwise := .leave }

end Mode

end AttributeShell
