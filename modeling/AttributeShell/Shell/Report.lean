import AttributeShell.Schema.Attribute
import AttributeShell.Style

/-!
What the shell prints: the description of an attribute, and errors. With colours off every text is
printed as it is.
-/

namespace AttributeShell.Report

def painted (colors : Bool) (style : Style) (text : String) : String :=
  if colors then style.paint text else text

def path (colors : Bool) : String → String :=
  painted colors { foreground := some .cyan, bold := true }

def label (colors : Bool) : String → String :=
  painted colors { dimmed := true }

def typeName (colors : Bool) : String → String :=
  painted colors { foreground := some .yellow }

/-- An access mode, which tells by its colour whether the attribute can be written. -/
def access (colors : Bool) (text : String) (writable : Bool) : String :=
  painted colors { foreground := some (if writable then .green else .red) } text

def error (colors : Bool) (message : String) : String :=
  painted colors { foreground := some .red } ("Error: " ++ message)

def field (colors : Bool) (name value : String) : String :=
  "  " ++ label colors name ++ " " ++ value

/-- The description of an attribute, under the path that names it. -/
def ofAttribute (colors : Bool) (name : String) (attr : Attribute) : String :=
  let type := field colors "type:       " (typeName colors attr.type.display)
  let mode := field colors "access:     " (access colors attr.access.name attr.isWritable)
  let text := attr.description.toList.map (field colors "description:")
  let below := attr.nested?.toList.map fun tree =>
    field colors "attributes: " (", ".intercalate tree.names)
  "\n".intercalate (path colors name :: type :: mode :: text ++ below)

end AttributeShell.Report
