/-!
Styles of a piece of text on a terminal, and their escape sequences.
-/

namespace AttributeShell

inductive Color where
  | red
  | green
  | yellow
  | blue
  | purple
  | cyan
  | darkGray
  deriving Repr, DecidableEq

def Color.code : Color → String
  | .red => "31"
  | .green => "32"
  | .yellow => "33"
  | .blue => "34"
  | .purple => "35"
  | .cyan => "36"
  | .darkGray => "90"

structure Style where
  foreground : Option Color := none
  bold : Bool := false
  dimmed : Bool := false
  underline : Bool := false
  deriving Repr, DecidableEq

namespace Style

def plain : Style := {}

def codes (style : Style) : List String :=
  (if style.bold then ["1"] else []) ++ (if style.dimmed then ["2"] else [])
    ++ (if style.underline then ["4"] else []) ++ (style.foreground.map Color.code).toList

/-- A text between the sequences that switch a style on and off. A plain text needs none. -/
def paint (style : Style) (text : String) : String :=
  if style.codes.isEmpty then text
  else "\x1b[" ++ ";".intercalate style.codes ++ "m" ++ text ++ "\x1b[0m"

end Style

end AttributeShell
