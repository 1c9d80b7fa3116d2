/-!
The prompts of the shell.
-/

namespace AttributeShell.Prompt

/-- Before a line: where the shell is, and whether it hides what is read-only. -/
def left (address : String) (writableOnly : Bool) : String :=
  "[" ++ address ++ (if writableOnly then " w" else "") ++ "]> "

def right : String := ""

def indicator : String := ""

/-- Before the further lines of an input. -/
def continuation : String := "... "

/-- Before a term searched for in the history. -/
def search (term : String) (failing : Bool) : String :=
  "(" ++ (if failing then "failing " else "") ++ "reverse-search: " ++ term ++ ") "

end AttributeShell.Prompt
